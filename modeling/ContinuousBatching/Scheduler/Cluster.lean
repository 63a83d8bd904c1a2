/-
**The scheduler and its replicas.**

A `Cluster` is the scheduler together with the replicas that it feeds, what was written down about
the run, and the batches of records that were delivered, oldest first. This module has the access to
its parts; what the cluster does is told in the modules on admission, preemption and completion.
-/

import ContinuousBatching.Cache.Replica
import ContinuousBatching.Scheduler.Basic
import ContinuousBatching.Trace

namespace ContinuousBatching

/-- A scheduler at work. -/
structure Cluster where
  scheduler : Scheduler
  replicas : List Replica
  /-- What happened, if it is written down. -/
  trace : Option Trace
  /-- The batches delivered to the callers. -/
  delivered : List (List StreamRecord)

namespace Cluster

/-- A cluster without requests. -/
def ofReplicas (replicas : List Replica) (lanes : Nat) (ids : SequenceIds) : Cluster :=
  ⟨.ofSize lanes ids, replicas, none, []⟩

/-- Runs an action on the scheduler. -/
def onScheduler {α : Type} (action : Action Scheduler α) : Action Cluster α :=
  action.on scheduler fun scheduler cluster => { cluster with scheduler := scheduler }

/-- Runs an action on the replicas. -/
def onReplicas {α : Type} (action : Action (List Replica) α) : Action Cluster α :=
  action.on replicas fun replicas cluster => { cluster with replicas := replicas }

/-- Writes an event down. -/
def record (id : RequestId) (event : Event) : Action Cluster Unit :=
  modify fun cluster => { cluster with trace := Trace.record cluster.trace id event }

/-- Delivers a batch. -/
def deliver (batch : List StreamRecord) : Action Cluster Unit :=
  modify fun cluster => { cluster with delivered := cluster.delivered ++ [batch] }

/-- Looks a request up. -/
def find (id : RequestId) : Action Cluster Ticket := onScheduler (Scheduler.find id)

/-- Replaces the ticket of a request. -/
def put (id : RequestId) (ticket : Ticket) : Action Cluster Unit :=
  onScheduler (Scheduler.put id ticket)

/-- Runs an action on the ticket of a request, in place. -/
def onTicket {α : Type} (id : RequestId) (action : Action Ticket α) : Action Cluster α := do
  let ticket ← find id
  onScheduler (action.on (fun _ => ticket) fun next s =>
    { s with tickets := s.tickets.insert id next })

/-- Changes the scheduler. -/
def modifyScheduler (change : Scheduler → Scheduler) : Action Cluster Unit :=
  onScheduler (modify change)

/-- The lane of a request on a replica, which has to be there. -/
def laneOf (ticket : Ticket) (replica : Nat) : Checked Lane :=
  match ticket.lane? replica with
  | some lane => .ok lane
  | none => .error (.fault .outOfRange)

/-- Feeds chunks to the sequence of a request on a replica and commits the token that it yields. -/
def feed (id : RequestId) (replica : Nat) (sequence : SequenceId) (chunks : List Chunk) :
    Action Cluster Sample := do
  let sample ← onReplicas (onReplica replica (Replica.forward sequence chunks))
  onScheduler (Scheduler.commit id replica sample)
  return sample

/-- Feeds a request everything that is pending on a replica. -/
def feedPending (id : RequestId) (replica : Nat) : Action Cluster Sample := do
  let ticket ← find id
  let lane ← laneOf ticket replica
  match lane.sequence with
  | none => refuse (.inconsistent (.admittedUnregistered id))
  | some sequence =>
    put id (ticket.modifyLane replica Lane.fed)
    feed id replica sequence lane.pending

/-- Feeds a request its last token on a replica. -/
def feedLast (id : RequestId) (replica : Nat) : Action Cluster Sample := do
  let ticket ← find id
  let lane ← laneOf ticket replica
  match lane.sequence, lane.committed.getLast? with
  | none, _ => refuse (.inconsistent (.runningUnregistered id))
  | some _, none => refuse (.inconsistent (.runningUncommitted id))
  | some sequence, some last => feed id replica sequence [.tokens [last.token]]

end Cluster

end ContinuousBatching
