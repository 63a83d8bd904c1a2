/-
**Walking through the actions of a cluster.**

The parts of a cluster are read and changed through a few small actions. Each of them has a rule
that says what it meets in terms of the parts, so that the text of a larger action can be followed
from one state to the next. The actions on sequence ids and totals have their results here as well:

* `meets_find`, `meets_put`, `meets_onScheduler`, `meets_onReplicas`, `meets_record`: the rules;
* `Scheduler.recycle_meets`: an id that no ticket refers to is taken back without a fault;
* `Totals.occupy_meets`, `Totals.release_meets`, `Totals.finish_meets`: positions are counted
  exactly.
-/

import ContinuousBatching.Proofs.Scheduler.Ownership
import ContinuousBatching.Scheduler.Cluster

namespace ContinuousBatching

namespace Totals

/-- Further positions are counted, or the count needs more than 64 bits. -/
theorem occupy_meets (totals : Totals) (length : Nat) :
    Meets (occupy length) totals
      (fun _ next => totals.occupied + length < Count.limit ∧
        next = { totals with occupied := totals.occupied + length })
      (fun stop next => stop = .fault .overflow ∧ Count.limit ≤ totals.occupied + length ∧
        next = totals) := by
  rw [occupy, meets_bind, meets_get, meets_bind, meets_liftM]
  refine (Count.add_yields _ _).mono ?_ ?_
  · rintro _ ⟨rfl, fits⟩
    exact ⟨fits, rfl⟩
  · rintro _ ⟨rfl, large⟩
    exact ⟨rfl, large, rfl⟩

/-- Positions that are occupied are freed. -/
theorem release_meets {totals : Totals} {length : Nat} (enough : length ≤ totals.occupied) :
    Meets (release length) totals
      (fun _ next => next = { totals with occupied := totals.occupied - length })
      (fun _ _ => False) := by
  rw [release, meets_bind, meets_get, if_pos enough]
  exact rfl

/-- The lengths of a finished request are added, or their sums need more than 64 bits. -/
theorem finish_meets (totals : Totals) (prefill decode : Nat) :
    Meets (finish prefill decode) totals
      (fun _ next => totals.prefillLength + prefill < Count.limit ∧
        totals.decodeLength + decode < Count.limit ∧ next =
          { totals with
            prefillLength := totals.prefillLength + prefill
            decodeLength := totals.decodeLength + decode })
      (fun stop _ => stop = .fault .overflow ∧
        (Count.limit ≤ totals.prefillLength + prefill ∨
          Count.limit ≤ totals.decodeLength + decode)) := by
  rw [finish, meets_bind, meets_get, meets_bind, meets_liftM]
  refine (Count.add_yields _ _).mono ?_ ?_
  · rintro _ ⟨rfl, fits⟩
    rw [meets_bind, meets_liftM]
    refine (Count.add_yields _ _).mono ?_ ?_
    · rintro _ ⟨rfl, fits'⟩
      exact ⟨fits, fits', rfl⟩
    · rintro _ ⟨rfl, large⟩
      exact ⟨rfl, Or.inr large⟩
  · rintro _ ⟨rfl, large⟩
    exact ⟨rfl, Or.inl large⟩

end Totals

namespace Scheduler

variable {s : Scheduler} {id : RequestId} {ticket : Ticket}

theorem ticketOf_of_found (found : s.tickets.get? id = some ticket) :
    s.ticketOf id = .ok ticket := by
  rw [ticketOf, found]

theorem ticketOf_of_absent (absent : s.tickets.get? id = none) :
    s.ticketOf id = .error (.refused (.requestNotFound id)) := by
  rw [ticketOf, absent]

@[simp]
theorem meets_find {done : Ticket → Scheduler → Prop} {stopped : Stop → Scheduler → Prop} :
    Meets (find id) s done stopped ↔
      Yields (s.ticketOf id) (fun ticket => done ticket s) (fun stop => stopped stop s) := by
  rw [find, meets_bind, meets_get, meets_liftM]

/-- A look-up that succeeds. -/
theorem find_meets {done : Ticket → Scheduler → Prop} {stopped : Stop → Scheduler → Prop}
    (found : s.tickets.get? id = some ticket) (value : done ticket s) :
    Meets (find id) s done stopped := by
  rw [meets_find, ticketOf_of_found found]
  exact value

@[simp]
theorem meets_put {done : Unit → Scheduler → Prop} {stopped : Stop → Scheduler → Prop} :
    Meets (put id ticket) s done stopped ↔
      done () { s with tickets := s.tickets.insert id ticket } := Iff.rfl

@[simp]
theorem meets_onTotals {α : Type} {action : Action Totals α} {done : α → Scheduler → Prop}
    {stopped : Stop → Scheduler → Prop} :
    Meets (onTotals action) s done stopped ↔
      Meets action s.totals (fun value totals => done value { s with totals := totals })
        (fun stop totals => stopped stop { s with totals := totals }) :=
  meets_on

@[simp]
theorem meets_onIds {α : Type} {action : Action SequenceIds α} {done : α → Scheduler → Prop}
    {stopped : Stop → Scheduler → Prop} :
    Meets (onIds action) s done stopped ↔
      Meets action s.ids (fun value ids => done value { s with ids := ids })
        (fun stop ids => stopped stop { s with ids := ids }) :=
  meets_on

/-- A sequence id that is live, and that no ticket refers to any more, is taken back. -/
theorem recycle_meets {sequence : SequenceId} (sound : s.ids.Sound)
    (live : sequence ∈ s.ids.live)
    (unheld : ∀ id ticket, s.tickets.get? id = some ticket → ticket.refersTo sequence = false) :
    Meets (recycle sequence) s
      (fun _ t => ∃ ids : SequenceIds, ids.Sound ∧ ids.capacity = s.ids.capacity ∧
        ids.live = s.ids.live.erase sequence ∧ t = { s with ids := ids })
      (fun _ _ => False) := by
  have clear : ¬ (s.tickets.values.any fun ticket => ticket.refersTo sequence) = true := by
    intro refers
    obtain ⟨ticket, member, refers⟩ := List.any_eq_true.mp refers
    obtain ⟨id, found⟩ := Registry.mem_values_iff.mp member
    rw [unheld id ticket found] at refers
    cases refers
  rw [recycle, meets_bind, meets_get, if_neg clear, meets_onIds]
  refine (SequenceIds.recycle_meets sound sequence).mono ?_ ?_
  · rintro _ next ⟨kept, _, erased, capacity⟩
    exact ⟨next, kept, capacity, erased, rfl⟩
  · rintro _ _ ⟨_, _, missing⟩
    exact missing live

end Scheduler

namespace Cluster

variable {c : Cluster} {id : RequestId} {α : Type}

@[simp]
theorem meets_onScheduler {action : Action Scheduler α} {done : α → Cluster → Prop}
    {stopped : Stop → Cluster → Prop} :
    Meets (onScheduler action) c done stopped ↔
      Meets action c.scheduler (fun value t => done value { c with scheduler := t })
        (fun stop t => stopped stop { c with scheduler := t }) :=
  meets_on

@[simp]
theorem meets_onReplicas {action : Action (List Replica) α} {done : α → Cluster → Prop}
    {stopped : Stop → Cluster → Prop} :
    Meets (onReplicas action) c done stopped ↔
      Meets action c.replicas (fun value replicas => done value { c with replicas := replicas })
        (fun stop replicas => stopped stop { c with replicas := replicas }) :=
  meets_on

@[simp]
theorem meets_record {event : Event} {done : Unit → Cluster → Prop}
    {stopped : Stop → Cluster → Prop} :
    Meets (record id event) c done stopped ↔
      done () { c with trace := Trace.record c.trace id event } := Iff.rfl

/-- Writing events down changes the trace only. -/
theorem recordAll_meets (ids : List RequestId) (event : Event) (c : Cluster) :
    Meets (ids.forM fun id => record id event) c
      (fun _ d => ∃ trace, d = { c with trace := trace }) (fun _ _ => False) := by
  refine Meets.forM (fun _ d => ∃ trace, d = { c with trace := trace }) ?_ ids c ⟨c.trace, rfl⟩
  rintro id rest _ ⟨trace, rfl⟩
  exact ⟨_, rfl⟩

@[simp]
theorem meets_deliver {batch : List StreamRecord} {done : Unit → Cluster → Prop}
    {stopped : Stop → Cluster → Prop} :
    Meets (deliver batch) c done stopped ↔
      done () { c with delivered := c.delivered ++ [batch] } := Iff.rfl

@[simp]
theorem meets_find {done : Ticket → Cluster → Prop} {stopped : Stop → Cluster → Prop} :
    Meets (find id) c done stopped ↔
      Yields (c.scheduler.ticketOf id) (fun ticket => done ticket c)
        (fun stop => stopped stop c) := by
  rw [find, meets_onScheduler, Scheduler.meets_find]

/-- A look-up that succeeds. -/
theorem find_meets {ticket : Ticket} {done : Ticket → Cluster → Prop}
    {stopped : Stop → Cluster → Prop} (found : c.scheduler.tickets.get? id = some ticket)
    (value : done ticket c) : Meets (find id) c done stopped := by
  rw [meets_find, Scheduler.ticketOf_of_found found]
  exact value

/-- The ticket of a request is changed in place, also where the action is stopped. -/
theorem meets_onTicket {ticket : Ticket} {action : Action Ticket α} {done : α → Cluster → Prop}
    {stopped : Stop → Cluster → Prop} (found : c.scheduler.tickets.get? id = some ticket) :
    Meets (onTicket id action) c done stopped ↔
      Meets action ticket
        (fun value next => done value
          { c with
            scheduler := { c.scheduler with tickets := c.scheduler.tickets.insert id next } })
        (fun stop next => stopped stop
          { c with
            scheduler := { c.scheduler with tickets := c.scheduler.tickets.insert id next } }) := by
  unfold onTicket
  rw [meets_bind, meets_find, Scheduler.ticketOf_of_found found, yields_ok, meets_onScheduler,
    meets_on]

@[simp]
theorem meets_put {ticket : Ticket} {done : Unit → Cluster → Prop}
    {stopped : Stop → Cluster → Prop} :
    Meets (put id ticket) c done stopped ↔
      done ()
        { c with
          scheduler := { c.scheduler with tickets := c.scheduler.tickets.insert id ticket } } :=
  Iff.rfl

@[simp]
theorem meets_modifyScheduler {change : Scheduler → Scheduler} {done : Unit → Cluster → Prop}
    {stopped : Stop → Cluster → Prop} :
    Meets (modifyScheduler change) c done stopped ↔
      done () { c with scheduler := change c.scheduler } := Iff.rfl

end Cluster

end ContinuousBatching
