/-
**Steps.**

A step either feeds newly admitted requests their input or every running request its last token,
never both. Each request fed commits one token on every replica, then all of them report together
with the running requests that were given up, and the finished ones end.

* Admission comes first: if a waiting request fits, the step is a prefill.
* Otherwise room is made for the running requests to go on, by preempting from the back of the queue
  (`Cluster.makeRoom`), and the step is a decode.
* If nothing runs, the request at the front of the waiting queue can never fit.

`Engine.runToCompletion` takes as many steps as it needs to finish all requests. A step that
succeeds feeds at least one request or ends one that was given up, so the tokens that the requests
may generate (`Engine.tokenBudget`) limit the steps. `Engine.stepBound` allows for more, so that a
run is never cut short: a request that could not be removed when it finished goes on until the
replicas are full, and then a step is refused.
-/

import ContinuousBatching.Engine.Basic
import ContinuousBatching.Scheduler.Admission
import ContinuousBatching.Scheduler.Completion
import ContinuousBatching.Scheduler.Preemption

namespace ContinuousBatching

/-- What a step did. -/
inductive StepKind where
  | idle
  | prefill
  | decode
  deriving DecidableEq, Repr

/-- What happened in a step. -/
structure StepReport where
  kind : StepKind
  /-- The requests that were fed. -/
  scheduled : List RequestId
  preempted : List RequestId
  finished : List RequestId
  deriving DecidableEq, Repr

/-- The step in which nothing is to be done. -/
def StepReport.idle : StepReport := ⟨.idle, [], [], []⟩

namespace Scheduler

/-- The requests of a list that were given up (`aborted`), or those that were not. -/
def select (s : Scheduler) (aborted : Bool) : List RequestId → Checked (List RequestId)
  | [] => .ok []
  | id :: rest => do
    let ticket ← s.ticketOf id
    let later ← s.select aborted rest
    return if ticket.abortRequested = aborted then id :: later else later

/-- The running requests that can go on: those that were not given up. -/
def decodable (s : Scheduler) : Checked (List RequestId) := s.select false s.running

/-- The sequence of each of these running requests. -/
def sequencesOf (s : Scheduler) : List RequestId → Checked (List SequenceId)
  | [] => .ok []
  | id :: rest => do
    let ticket ← s.ticketOf id
    match ticket.primary.sequence with
    | none => .error (.refused (.inconsistent (.runningUnregistered id)))
    | some sequence => return sequence :: (← s.sequencesOf rest)

end Scheduler

namespace Cluster

/-- Admits waiting requests whose inputs fit together. -/
def admitFitting (slots : Nat) : Action Cluster (List RequestId) := do
  let admitted ← startWaiting slots fitsReserved []
  admitted.forM fun id => record id .admitted
  return admitted

/-- Does something for each replica in turn, given its place. -/
def onEachPlace (action : Nat → Action Cluster Sample) : Action Cluster Unit := do
  (List.range (← get).replicas.length).forM fun place => discard (action place)

/-- Feeds a request its input on every replica. -/
def prefillOne (id : RequestId) : Action Cluster Unit := do
  onEachPlace (feedPending id)
  onScheduler (Scheduler.markPrefilled id)
  record id .prefilled

/-- Feeds a request its last token on every replica. -/
def decodeOne (id : RequestId) : Action Cluster Unit := onEachPlace (feedLast id)

/-- Whether every replica has room for one position more of each of these running requests. -/
def decodeFits (cluster : Cluster) (ids : List RequestId) : Checked Bool := do
  let sequences ← cluster.scheduler.sequencesOf ids
  allChecked (fun replica => replica.canDecode sequences) cluster.replicas

/-- Preempts running requests until those that are left can go on, at most as many as said. One
request that runs alone is not preempted: it could not go on later either. -/
def makeRoom : Nat → Action Cluster (List RequestId)
  | 0 => do
    let cluster ← get
    if ← cluster.decodeFits (← cluster.scheduler.decodable) then return []
    else refuse .outOfBlocks
  | victims + 1 => do
    let cluster ← get
    let batch ← cluster.scheduler.decodable
    if ← cluster.decodeFits batch then return []
    else if batch.length ≤ 1 then refuse .outOfBlocks
    else
      let victim ← preemptLast
      let later ← makeRoom victims
      return victim :: later

/-- Feeds the admitted requests, or else the running ones. -/
def feedBatch (admitted : List RequestId) : Action Cluster StepReport := do
  if !admitted.isEmpty then
    admitted.forM prefillOne
    return { StepReport.idle with kind := .prefill, scheduled := admitted }
  else
    let running := (← get).scheduler.running
    if running.isEmpty then refuse .outOfBlocks
    else
      let preempted ← makeRoom running.length
      let scheduled ← (← get).scheduler.decodable
      scheduled.forM decodeOne
      return { StepReport.idle with
        kind := .decode, scheduled := scheduled, preempted := preempted }

/-- The requests that report after a step: those that were fed, then the other running ones that
were given up. -/
def reporters (cluster : Cluster) (scheduled : List RequestId) : Checked (List RequestId) := do
  let aborted ← cluster.scheduler.select true cluster.scheduler.running
  return scheduled ++ aborted.filter fun id => !scheduled.contains id

/-- Takes a step. -/
def step (tokenizer : Tokenizer) (settings : EngineSettings) : Action Cluster StepReport := do
  if (← get).scheduler.hasPending then
    let admitted ← admitFitting settings.maxRunning
    let report ← feedBatch admitted
    let finished ← process (← (← get).reporters report.scheduled) tokenizer settings.maxLength
    finished.forM fun id => record id .finished
    return { report with finished := finished }
  else return .idle

end Cluster

namespace Engine

/-- Takes a step. -/
def step : Action Engine StepReport := do
  let engine ← get
  onCluster (Cluster.step engine.tokenizer engine.settings)

/-- Takes at most as many steps, until there is no request left. -/
def runSteps : Nat → Action Engine (List StepReport)
  | 0 => pure []
  | steps + 1 => do
    if (← get).hasPending then
      let report ← step
      let later ← runSteps steps
      return report :: later
    else return []

/-- The number of tokens that the requests may generate; each of them generates one at least. -/
def tokenBudget (engine : Engine) : Nat :=
  (engine.cluster.scheduler.tickets.values.map fun ticket =>
    max ticket.request.settings.maxTokens 1).foldr (· + ·) 0

/-- The number of positions that a sequence takes before some replica has no room for it. -/
def room (engine : Engine) : Nat :=
  (engine.cluster.replicas.map Replica.room).foldr (· + ·) 0

/-- More steps than it takes to finish all requests or to fill the replicas: a request that never
finishes may fill them once before it is preempted for the first time and once in all after that. -/
def stepBound (engine : Engine) : Nat :=
  engine.tokenBudget + engine.cluster.scheduler.tickets.size * (2 * engine.room + 2)

/-- Takes steps until there is no request left. -/
def runToCompletion : Action Engine (List StepReport) := do runSteps (← get).stepBound

end Engine

end ContinuousBatching
