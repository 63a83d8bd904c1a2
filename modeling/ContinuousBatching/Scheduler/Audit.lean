/-
**Auditing the scheduler.**

`Scheduler.audit` looks for a contradiction in the bookkeeping, between two steps: each request
stands in one queue; a request that runs has been fed and has a token; a request that waits has
something to be fed and no proposed tokens; every live sequence id belongs to exactly one request;
and the positions counted are those of the running requests.
-/

import ContinuousBatching.Scheduler.Basic

namespace ContinuousBatching.Scheduler

/-- Reports a contradiction. -/
def contradiction {α : Type} (violation : Violation) : Checked α :=
  .error (.refused (.inconsistent violation))

/-- Each queued id is queued once and has a ticket. -/
def auditQueue (s : Scheduler) (seen : List RequestId) : List RequestId → Checked Unit
  | [] => .ok ()
  | id :: rest =>
    if id ∈ seen then contradiction (.queuedTwice id)
    else if s.tickets.contains id then s.auditQueue (id :: seen) rest
    else contradiction (.queuedUnknown id)

/-- The positions of the running requests on top of `length`; each was fed and has a token. -/
def auditRunning (s : Scheduler) (length : Nat) : List RequestId → Checked Nat
  | [] => .ok length
  | id :: rest => do
    let ticket ← s.ticketOf id
    if !ticket.primary.pending.isEmpty then contradiction (.runningPending id)
    else if ticket.primary.committed.isEmpty then contradiction (.runningUncommitted id)
    else s.auditRunning (← Count.add length (← ticket.occupiedLength)) rest

/-- The lanes of a waiting request have something to be fed and nothing proposed. -/
def auditLanes (id : RequestId) : List Lane → Checked Unit
  | [] => .ok ()
  | lane :: rest =>
    if !lane.drafts.isEmpty then contradiction (.waitingDrafts id)
    else if lane.pending.isEmpty then contradiction (.waitingWithoutInputs id)
    else auditLanes id rest

/-- The lanes of all waiting requests. -/
def auditWaiting (s : Scheduler) : List RequestId → Checked Unit
  | [] => .ok ()
  | id :: rest => do
    let ticket ← s.ticketOf id
    auditLanes id ticket.lanes
    s.auditWaiting rest

/-- The sequence ids that requests hold on top of `held`; each is live and held once. -/
def auditSequences (s : Scheduler) (held : List SequenceId) :
    List Ticket → Checked (List SequenceId)
  | [] => .ok held
  | ticket :: rest =>
    match ticket.primary.sequence with
    | none => s.auditSequences held rest
    | some sequence =>
      if sequence ∈ held ∨ !s.ids.isLive sequence then
        contradiction (.sequenceNotOwned sequence ticket.id)
      else s.auditSequences (sequence :: held) rest

/-- Looks for a contradiction. -/
def audit (s : Scheduler) : Checked Unit := do
  let queued := s.running ++ s.waiting
  s.auditQueue [] queued
  if queued.length ≠ s.tickets.size then
    contradiction (.queueSizes s.tickets.size queued.length)
  let expected ← s.auditRunning 0 s.running
  s.auditWaiting s.waiting
  let held ← s.auditSequences [] s.tickets.values
  if held.length ≠ s.ids.liveCount then
    contradiction (.sequenceCounts s.ids.liveCount held.length)
  if expected ≠ s.totals.occupied then
    contradiction (.occupiedMismatch s.totals.occupied expected)

end ContinuousBatching.Scheduler
