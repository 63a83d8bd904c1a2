/-
**Reports and completion.**

After a step the requests of a batch report what they generated (`Cluster.process`). The records are
delivered at once as one batch, in the order of the requests and without those that have nothing to
report; only then are the requests that finished reclaimed: each leaves the running queue, its
sequence is removed from every replica, its id is recycled, its ticket dropped, and its lengths are
added to the totals.
-/

import ContinuousBatching.Scheduler.Cluster

namespace ContinuousBatching.Cluster

/-- Ends a running request. -/
def reclaimOne (id : RequestId) : Action Cluster Unit := do
  if id ∈ (← get).scheduler.running then
    let ticket ← find id
    match ticket.primary.sequence with
    | none => refuse (.inconsistent (.runningUnregistered id))
    | some sequence =>
      modifyScheduler fun s => { s with running := s.running.erase id }
      onReplicas (onEvery (Replica.removeSequence sequence))
      modifyScheduler fun s => { s with tickets := s.tickets.erase id }
      onScheduler (Scheduler.recycle sequence)
      onScheduler (Scheduler.onTotals do
        Totals.release (← ticket.occupiedLength)
        Totals.finish ticket.request.inputLength (ticket.primary.committed.length - 1))
  else refuse (.notRunning id)

/-- Ends running requests, in order. -/
def reclaim (ids : List RequestId) : Action Cluster Unit := ids.forM reclaimOne

/-- Lets requests report, in order; those with nothing to report leave no record. -/
def report (tokenizer : Tokenizer) (maxLength : Nat) :
    List RequestId → Action Cluster (List StreamRecord)
  | [] => pure []
  | id :: rest => do
    let delta ← onTicket id (Ticket.ask tokenizer maxLength)
    let ticket ← find id
    let later ← report tokenizer maxLength rest
    if delta.isEmpty then return later
    else return .ofDelta id ticket.request.settings delta :: later

/-- The requests that finished according to a batch. -/
def finishedIn (batch : List StreamRecord) : List RequestId :=
  (batch.filter fun r => r.finish.isSome).map StreamRecord.request

/-- Lets requests report, hands the records over to a sink, all at once, and then ends the requests
that finished. -/
def processTo (sink : List StreamRecord → Action Cluster Unit) (ids : List RequestId)
    (tokenizer : Tokenizer) (maxLength : Nat) : Action Cluster (List RequestId) := do
  let batch ← report tokenizer maxLength ids
  sink batch
  let finished := finishedIn batch
  reclaim finished
  return finished

/-- Lets requests report, delivers the records, and ends the requests that finished. -/
def process (ids : List RequestId) (tokenizer : Tokenizer) (maxLength : Nat) :
    Action Cluster (List RequestId) :=
  processTo deliver ids tokenizer maxLength

end ContinuousBatching.Cluster
