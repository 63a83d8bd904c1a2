/-
**The scheduler.**

Every request that the scheduler knows has a ticket and stands in exactly one of two queues of ids:
it waits, or it runs. A request enters at the back of the waiting queue (`Scheduler.add`). Tokens
are committed only to requests that run (`Scheduler.commit`). Giving up a request that waits drops
it at once; one that runs is only marked, and ends with its next report (`Scheduler.abort`).
-/

import ContinuousBatching.Registry
import ContinuousBatching.Request.Delta
import ContinuousBatching.Scheduler.Totals
import ContinuousBatching.SequenceIds

namespace ContinuousBatching

/-- Who waits, who runs, and what is known about them. -/
structure Scheduler where
  running : List RequestId
  waiting : List RequestId
  tickets : Registry RequestId Ticket
  ids : SequenceIds
  /-- The number of lanes of a request. -/
  laneCount : Nat
  totals : Totals

namespace Scheduler

/-- A scheduler without requests for as many replicas, but at least one, and its sequence ids. -/
def ofSize (replicas : Nat) (ids : SequenceIds) : Scheduler where
  running := []
  waiting := []
  tickets := .empty
  ids := ids
  laneCount := max replicas 1
  totals := .zero

/-- Whether there is a request. -/
def hasPending (s : Scheduler) : Bool := !s.tickets.isEmpty

/-- The ticket of a request. -/
def ticketOf (s : Scheduler) (id : RequestId) : Checked Ticket :=
  match s.tickets.get? id with
  | some ticket => .ok ticket
  | none => .error (.refused (.requestNotFound id))

/-- Looks a request up. -/
def find (id : RequestId) : Action Scheduler Ticket := do (← get).ticketOf id

/-- Replaces the ticket of a request. -/
def put (id : RequestId) (ticket : Ticket) : Action Scheduler Unit :=
  modify fun s => { s with tickets := s.tickets.insert id ticket }

/-- Runs an action on the totals. -/
def onTotals {α : Type} (action : Action Totals α) : Action Scheduler α :=
  action.on totals fun totals s => { s with totals := totals }

/-- Runs an action on the sequence ids. -/
def onIds {α : Type} (action : Action SequenceIds α) : Action Scheduler α :=
  action.on ids fun ids s => { s with ids := ids }

/-- Lets a new request wait. Its id must be unused and its input must take a position. -/
def add (request : Request) : Action Scheduler Unit := do
  let s ← get
  if s.tickets.contains request.id then refuse (.duplicateRequest request.id)
  else if request.inputLength = 0 then refuse (.untranslatable (.emptyPrompt request.id))
  else
    let ticket ← Ticket.issue request s.laneCount
    set { s with
      tickets := s.tickets.insert request.id ticket
      waiting := s.waiting ++ [request.id] }

/-- Adds a token to a lane of a request that runs. Tokens of the primary lane occupy positions, one
round after they were generated. -/
def commit (id : RequestId) (replica : Nat) (sample : Sample) : Action Scheduler Unit := do
  if id ∈ (← get).running then
    let ticket ← find id
    let before ← ticket.occupiedLength
    if (ticket.lane? replica).isNone then refuse (.inconsistent (.laneMissing id replica))
    let longer := ticket.modifyLane replica fun lane => lane.commit sample
    put id longer
    if replica = 0 then onTotals (Totals.occupy ((← longer.occupiedLength) - before))
  else refuse (.notRunning id)

/-- Notes that the input of a request was fed. -/
def markPrefilled (id : RequestId) : Action Scheduler Unit := do put id (← find id).markPrefilled

/-- Takes a sequence id back, which no request may refer to any more. -/
def recycle (sequence : SequenceId) : Action Scheduler Unit := do
  if (← get).tickets.values.any fun ticket => ticket.refersTo sequence then
    faultWith .assertion
  else onIds (SequenceIds.recycle sequence)

/-- Takes a sequence id back, if there is one. -/
def recycleStale : Option SequenceId → Action Scheduler Unit
  | none => pure ()
  | some sequence => recycle sequence

/-- Gives a request up. -/
def abort (id : RequestId) : Action Scheduler Unit := do
  let s ← get
  if id ∈ s.running then put id (← find id).abort
  else if id ∈ s.waiting then
    set { s with waiting := s.waiting.erase id }
    let ticket ← find id
    modify fun s => { s with tickets := s.tickets.erase id }
    recycleStale ticket.primary.sequence
  else refuse (.requestNotFound id)

end Scheduler

end ContinuousBatching
