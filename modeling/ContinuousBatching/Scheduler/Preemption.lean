/-
**Preemption.**

When the caches are full, the request that came to run last gives its place up: its sequence is
removed from every replica and it returns to the front of the waiting queue, prepared for being fed
its input and everything it generated once more. It keeps its tokens and its sequence id. A request
that was given up by its caller is never preempted, as it is about to end.
-/

import ContinuousBatching.Scheduler.Cluster

namespace ContinuousBatching

/-- The request that is preempted next: the last running one that was not given up. -/
def Scheduler.victim? (s : Scheduler) : Option RequestId :=
  s.running.reverse.find? fun id => !((s.tickets.get? id).any Ticket.abortRequested)

namespace Cluster

/-- A request can be preempted on a lane that was fed and has a token. -/
def checkFed (id : RequestId) (lanes : List Lane) : Checked Unit :=
  match lanes.find? fun lane => !lane.pending.isEmpty || lane.committed.isEmpty with
  | none => .ok ()
  | some lane =>
    .error (.refused (.inconsistent
      (.prefillUnfinished id lane.replica lane.pending.length lane.committed.length)))

/-- Moves a running request to the front of the waiting queue. -/
def requeue (id : RequestId) (s : Scheduler) : Scheduler :=
  { s with running := s.running.erase id, waiting := id :: s.waiting }

/-- Preempts a request. -/
def preempt (id : RequestId) : Action Cluster Unit := do
  let ticket ← find id
  checkFed id ticket.lanes
  match ticket.primary.sequence with
  | none => refuse (.inconsistent (.runningUnregistered id))
  | some sequence =>
    record id .preempted
    onScheduler (Scheduler.onTotals (Totals.release (← ticket.occupiedLength)))
    put id ticket.rewound
    onReplicas (onEvery (Replica.removeSequence sequence))
    modifyScheduler (requeue id)

/-- Preempts the last running request that was not given up. -/
def preemptLast : Action Cluster RequestId := do
  match (← get).scheduler.victim? with
  | none => refuse .nothingToPreempt
  | some id =>
    preempt id
    return id

end Cluster

end ContinuousBatching
