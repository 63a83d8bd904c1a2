/-
**Admission.**

Waiting requests are admitted from the front of their queue as long as a running slot is free and a
test accepts the next one; nobody is passed over. An admitted request is registered under one new
sequence id with every replica and goes to the back of the running queue. A request that was
preempted still holds the id it had before, which is recycled just before the new one is taken.
-/

import ContinuousBatching.Scheduler.Cluster

namespace ContinuousBatching.Cluster

/-- A test of a waiting request, given the replicas it would run on. It keeps notes of the kind `π`
from one request to the next. -/
abbrev AdmissionTest (π : Type) := π → Ticket → List Replica → Checked (Bool × π)

/-- Detaches a request from the sequence id it retained. -/
def dropStale (id : RequestId) (ticket : Ticket) : Action Cluster Unit := do
  match ticket.primary.sequence with
  | none => pure ()
  | some stale =>
    put id (ticket.attachAll none)
    onScheduler (Scheduler.recycle stale)

/-- Moves the request at the front of the waiting queue to the back of the running queue. -/
def startFront (id : RequestId) (occupied : Nat) : Action Scheduler Unit := do
  modify fun s => { s with waiting := s.waiting.tail, running := s.running ++ [id] }
  Scheduler.onTotals (Totals.occupy occupied)

/-- Registers the request at the front of the waiting queue with every replica and lets it run. -/
def start (id : RequestId) : Action Cluster Unit := do
  dropStale id (← find id)
  let fresh ← onScheduler (Scheduler.onIds SequenceIds.allocate)
  onReplicas (onEvery (Replica.addSequence fresh))
  let ticket ← find id
  put id (ticket.attachAll (some fresh))
  onScheduler (startFront id (← ticket.occupiedLength))

/-- Admits requests of a waiting queue, the first ones of it. -/
def startWhile {π : Type} (slots : Nat) (test : AdmissionTest π) :
    π → List RequestId → Action Cluster (List RequestId)
  | _, [] => pure []
  | notes, id :: rest => do
    let cluster ← get
    if cluster.scheduler.running.length < slots then
      let (accepted, notes) ← test notes (← find id) cluster.replicas
      if accepted then
        start id
        let later ← startWhile slots test notes rest
        return id :: later
      else return []
    else return []

/-- Admits waiting requests until `slots` requests run or the test turns one down. -/
def startWaiting {π : Type} (slots : Nat) (test : AdmissionTest π) (notes : π) :
    Action Cluster (List RequestId) := do
  startWhile slots test notes (← get).scheduler.waiting

/-- Accepts a request if its pending input fits into every replica together with the inputs accepted
before, whose lengths are the notes: blocks are only taken when the inputs are fed. -/
def fitsReserved : AdmissionTest (List Nat) := fun reserved ticket replicas => do
  let lengths := reserved ++ [← totalLength ticket.primary.pending]
  let fits ← allChecked (fun replica => replica.canFit lengths) replicas
  return (fits, if fits then lengths else reserved)

end ContinuousBatching.Cluster
