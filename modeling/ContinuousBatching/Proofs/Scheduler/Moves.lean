/-
**Requests on the move.**

A request starts, is preempted, or ends. Each of these operations changes the scheduler and every
cache step by step; from a cluster in order it arrives at the result written out in
`Scheduler.started`, `Scheduler.preempted` or `Scheduler.ended`, and the cluster is in order again.

* `Cluster.start_meets`: a start is refused only if the sequence ids are exhausted, and then nothing
  has changed; a request that still holds an id finds one in any case;
* `Cluster.preempt_meets`: a preemption is refused only before it changes anything;
* `Cluster.reclaimOne_meets`: a running request can always be ended.

Apart from that, only a count that needs more than 64 bits stops them. Requests are admitted and
report one after the other; what has to be known of one turn of these loops, on any cluster, is
stated in `Cluster.startWhile_rule` and `Cluster.report_rule`.
-/

import ContinuousBatching.Proofs.Request.Report
import ContinuousBatching.Proofs.Scheduler.Owned
import ContinuousBatching.Scheduler.Admission
import ContinuousBatching.Scheduler.Completion
import ContinuousBatching.Scheduler.Preemption

namespace ContinuousBatching.Cluster

variable {c : Cluster} {caches : List PagedCache} {id : RequestId} {ticket : Ticket}

theorem occupiedLength_yields (ticket : Ticket) :
    Yields ticket.occupiedLength (fun n => n = ticket.occupied)
      (fun stop => stop = .fault .overflow ∧ Count.limit ≤ ticket.occupied) :=
  (Count.add_yields _ _).mono (fun _ both => both.1) (fun _ => fun both => both)

/-- The positions of a running request were counted before. -/
theorem occupiedLength_of_running (consistent : c.scheduler.Consistent)
    (runs : id ∈ c.scheduler.running) (found : c.scheduler.tickets.get? id = some ticket) :
    ticket.occupiedLength = .ok ticket.occupied := by
  have below := Nat.lt_of_le_of_lt (consistent.occupied_le runs found) consistent.countable
  exact Count.add_eq_ok_iff.mpr ⟨below, rfl⟩

/-! ### Starting -/

/-- What is left to do once a waiting request was detached from the id it retained. -/
structure Detached (c : Cluster) (id : RequestId) (ticket : Ticket) (d : Cluster)
    (kept : Ticket) : Prop where
  found : d.scheduler.tickets.get? id = some kept
  attach : ∀ sequence, kept.attachAll sequence = ticket.attachAll sequence
  frees : c.scheduler.Frees id d.scheduler.ids
  room : c.scheduler.sequenceOf? id ≠ none → d.scheduler.ids.live.length < c.scheduler.ids.capacity
  tickets : ∀ new, d.scheduler.tickets.insert id new = c.scheduler.tickets.insert id new
  unchanged : c.scheduler.sequenceOf? id = none → d = c
  same : d = { c with scheduler :=
    { c.scheduler with tickets := d.scheduler.tickets, ids := d.scheduler.ids } }

theorem dropStale_meets (consistent : c.scheduler.Consistent)
    (found : c.scheduler.tickets.get? id = some ticket) :
    Meets (dropStale id ticket) c (fun _ d => ∃ kept, Detached c id ticket d kept)
      (fun _ _ => False) := by
  have held := Scheduler.sequenceOf?_of_found found
  unfold dropStale
  cases attached : ticket.primary.sequence with
  | none =>
      rw [attached] at held
      refine ⟨ticket, found, fun _ => rfl, Scheduler.Frees.of_none consistent.ids held, ?_,
        fun _ => rfl, fun _ => rfl, rfl⟩
      exact fun attached => absurd held attached
  | some stale =>
      rw [attached] at held
      have live : stale ∈ c.scheduler.ids.live := (consistent.live stale).mpr ⟨id, held⟩
      have unheld : ∀ other held,
          (c.scheduler.tickets.insert id (ticket.attachAll none)).get? other = some held →
          held.refersTo stale = false := by
        intro other kept there
        rw [Registry.get?_insert] at there
        split at there
        · cases there
          refine Bool.eq_false_iff.mpr fun refers => ?_
          cases Ticket.alike_attachAll.refersTo_iff.mp refers
        · rename_i differ
          refine consistent.unheld_of_erase held other kept ?_
          rw [Registry.get?_erase, if_neg differ]
          exact there
      rw [meets_bind, meets_put, meets_onScheduler]
      refine (Scheduler.recycle_meets (s := { c.scheduler with
        tickets := c.scheduler.tickets.insert id (ticket.attachAll none) }) consistent.ids live
        unheld).mono ?_ (fun _ _ => False.elim)
      rintro _ _ ⟨ids, sound, capacity, erased, rfl⟩
      refine ⟨ticket.attachAll none, ?_, fun _ => Ticket.attachAll_attachAll,
        Scheduler.Frees.of_erase consistent.ids held sound capacity erased, fun _ => ?_,
        Registry.insert_insert _ _ _, fun none => ?_, rfl⟩
      · show (c.scheduler.tickets.insert id _).get? id = _
        rw [Registry.get?_insert, if_pos rfl]
      · have length := consistent.ids.length_add
        have bounded := consistent.ids.bounded
        have fewer : ids.live.length + 1 = c.scheduler.ids.live.length := by
          rw [erased, List.length_erase_of_mem live]
          have positive := List.length_pos_of_mem live
          omega
        show ids.live.length < c.scheduler.ids.capacity
        have le : c.scheduler.ids.live.length ≤ c.scheduler.ids.capacity :=
          Nat.le_trans (Nat.le_add_right _ _) (length ▸ bounded)
        omega
      · rw [held] at none
        cases none

/-- The cluster after a request started with a sequence. -/
def started (c : Cluster) (caches : List PagedCache) (id : RequestId) (ticket : Ticket)
    (sequence : SequenceId) (ids : SequenceIds) : Cluster :=
  { c with
    scheduler := c.scheduler.started id ticket sequence ids
    replicas := (caches.map fun cache => cache.registered sequence).map .paged }

/-- An id that is not live afterwards is held by no running request. -/
theorem Detached.unheld_of_fresh {d : Cluster} {kept : Ticket}
    (detached : Detached c id ticket d kept) (consistent : c.scheduler.Consistent)
    (idle : id ∉ c.scheduler.running) {sequence : SequenceId}
    (fresh : sequence ∉ d.scheduler.ids.live) :
    ∀ other ∈ c.scheduler.running, c.scheduler.sequenceOf? other ≠ some sequence := by
  intro other runs held
  refine fresh ((detached.frees.live sequence).mpr
    ⟨(consistent.live sequence).mpr ⟨other, held⟩, fun own => idle ?_⟩)
  exact consistent.owner other id sequence held own ▸ runs

/-- Nothing else about the ticket has changed. -/
theorem Detached.occupied {d : Cluster} {kept : Ticket} (detached : Detached c id ticket d kept) :
    kept.occupied = ticket.occupied := by
  have attached := congrArg Ticket.occupied (detached.attach none)
  rwa [Ticket.occupied_attachAll, Ticket.occupied_attachAll] at attached

/-- **A start.** The request runs with a sequence that nobody else holds, or the ids are exhausted
and nothing has changed. -/
theorem start_meets (owned : c.Owned caches) {rest : List RequestId}
    (front : c.scheduler.waiting = id :: rest)
    (found : c.scheduler.tickets.get? id = some ticket) :
    Meets (start id) c
      (fun _ d => ∃ sequence ids, ids.capacity = c.scheduler.ids.capacity ∧
        (∀ other ∈ c.scheduler.running, c.scheduler.sequenceOf? other ≠ some sequence) ∧
        d = c.started caches id ticket sequence ids ∧
        d.Owned (caches.map fun cache => cache.registered sequence))
      (fun stop d =>
        (stop = .refused (.sequenceIdsExhausted c.scheduler.ids.capacity) ∧ d = c ∧
          c.scheduler.sequenceOf? id = none ∧
          c.scheduler.ids.capacity ≤ c.scheduler.ids.live.length) ∨
        (stop = .fault .overflow ∧
          Count.limit ≤ c.scheduler.totals.occupied + ticket.occupied)) := by
  have consistent := owned.consistent
  have idle : id ∉ c.scheduler.running := fun runs =>
    consistent.not_waiting_of_running runs (front ▸ List.mem_cons_self)
  unfold start
  rw [meets_bind]
  refine find_meets found ?_
  rw [meets_bind]
  refine (dropStale_meets consistent found).mono ?_ (fun _ _ => False.elim)
  rintro _ e ⟨kept, detached⟩
  have same := detached.same
  have frees := detached.frees
  rw [meets_bind, meets_onScheduler, Scheduler.meets_onIds]
  refine (SequenceIds.allocate_meets frees.sound).mono ?_ ?_
  · rintro sequence ids ⟨sound, fresh, live, capacity⟩
    have unheld := detached.unheld_of_fresh consistent idle fresh
    have replicas : e.replicas = caches.map .paged := by
      rw [same]
      exact owned.replicas
    rw [meets_bind, meets_onReplicas, replicas,
      meets_iff_of_ok (onEvery_addSequence (owned.absent_of_unheld unheld)), meets_bind]
    refine find_meets detached.found ?_
    rw [meets_bind, meets_put, detached.attach, meets_bind, meets_liftM]
    have occupied := detached.occupied
    refine (occupiedLength_yields kept).mono ?_ ?_
    · rintro _ rfl
      rw [meets_onScheduler, startFront, meets_bind, meets_modify, occupied,
        Scheduler.meets_onTotals]
      refine (Totals.occupy_meets _ _).mono ?_ ?_
      · rintro _ _ ⟨countable, rfl⟩
        have result : ({ e with
            replicas := (caches.map fun cache => cache.registered sequence).map .paged
            scheduler :=
              { e.scheduler with
                running := e.scheduler.running ++ [id]
                waiting := e.scheduler.waiting.tail
                tickets := e.scheduler.tickets.insert id (ticket.attachAll (some sequence))
                ids := ids
                totals :=
                  { e.scheduler.totals with
                    occupied := e.scheduler.totals.occupied + ticket.occupied } } } : Cluster) =
            c.started caches id ticket sequence ids := by
          rw [detached.tickets, same]
          rfl
        have countable : c.scheduler.totals.occupied + ticket.occupied < Count.limit := by
          rw [same] at countable
          exact countable
        refine ⟨sequence, ids, capacity.trans frees.capacity, unheld, result, ?_⟩
        refine result ▸ owned.started front unheld ?_ rfl rfl
        exact consistent.started front found frees fresh sound live countable
      · rintro _ _ ⟨rfl, large, rfl⟩
        rw [same] at large
        exact Or.inr ⟨rfl, large⟩
    · rintro _ ⟨rfl, large⟩
      exact Or.inr ⟨rfl, Nat.le_add_left_of_le (occupied ▸ large)⟩
  · rintro _ _ ⟨rfl, rfl, full⟩
    by_cases attached : c.scheduler.sequenceOf? id = none
    · have unchanged := detached.unchanged attached
      subst unchanged
      exact Or.inl ⟨rfl, rfl, attached, full⟩
    · have room := detached.room attached
      rw [frees.capacity] at full
      exact absurd room (Nat.not_lt_of_le full)

theorem waiting_started {rest : List RequestId} {sequence : SequenceId} {ids : SequenceIds}
    (front : c.scheduler.waiting = id :: rest) :
    (c.started caches id ticket sequence ids).scheduler.waiting = rest := by
  show c.scheduler.waiting.tail = rest
  rw [front, List.tail_cons]

section Turn

variable {π : Type} {slots : Nat} {test : AdmissionTest π} {notes : π} {rest : List RequestId}
  {done : List RequestId → Cluster → Prop} {stopped : Stop → Cluster → Prop}

/-- **One turn of an admission.** It is the last one where no slot is free or the test turns the
request down; otherwise the request starts, and the others follow. -/
theorem startWhile_rule
    (stays : (c.scheduler.running.length < slots → ∃ ticket later,
      c.scheduler.tickets.get? id = some ticket ∧
        test notes ticket c.replicas = .ok (false, later)) → done [] c)
    (absent : c.scheduler.tickets.get? id = none → stopped (.refused (.requestNotFound id)) c)
    (fails : ∀ ticket stop, c.scheduler.tickets.get? id = some ticket →
      test notes ticket c.replicas = .error stop → stopped stop c)
    (starts : ∀ ticket later, c.scheduler.tickets.get? id = some ticket →
      c.scheduler.running.length < slots → test notes ticket c.replicas = .ok (true, later) →
      Meets (start id) c
        (fun _ d => Meets (startWhile slots test later rest) d (fun more => done (id :: more))
          stopped)
        stopped) :
    Meets (startWhile slots test notes (id :: rest)) c done stopped := by
  unfold startWhile
  rw [meets_bind, meets_get]
  by_cases room : c.scheduler.running.length < slots
  · rw [if_pos room, meets_bind, meets_find]
    cases found : c.scheduler.tickets.get? id with
    | none =>
        rw [Scheduler.ticketOf_of_absent found]
        exact absent found
    | some ticket =>
        rw [Scheduler.ticketOf_of_found found, yields_ok, meets_bind, meets_liftM]
        cases tested : test notes ticket c.replicas with
        | error stop => exact fails ticket stop found tested
        | ok answer =>
            obtain ⟨accepted, later⟩ := answer
            cases accepted with
            | false => exact stays fun _ => ⟨ticket, later, found, tested⟩
            | true =>
                rw [yields_ok]
                dsimp only
                rw [if_pos rfl, meets_bind]
                refine (starts ticket later found room tested).mono ?_ (fun _ _ stop => stop)
                intro _ d others
                rw [meets_bind]
                exact others
  · rw [if_neg room]
    exact stays fun free => absurd free room

/-- One turn where the cluster is in order: the request at the front is known, and it can start
unless the sequence ids are exhausted. -/
theorem Owned.startWhile_rule (owned : c.Owned caches)
    (front : c.scheduler.waiting = id :: rest)
    (stays : (c.scheduler.running.length < slots → ∃ ticket later,
      c.scheduler.tickets.get? id = some ticket ∧
        test notes ticket c.replicas = .ok (false, later)) → done [] c)
    (fails : ∀ ticket stop, c.scheduler.tickets.get? id = some ticket →
      test notes ticket c.replicas = .error stop → stopped stop c)
    (exhausted : c.scheduler.running.length < slots → c.scheduler.sequenceOf? id = none →
      c.scheduler.ids.capacity ≤ c.scheduler.ids.live.length →
      stopped (.refused (.sequenceIdsExhausted c.scheduler.ids.capacity)) c)
    (large : ∀ d, stopped (.fault .overflow) d)
    (starts : ∀ ticket later sequence ids, c.scheduler.tickets.get? id = some ticket →
      c.scheduler.running.length < slots → test notes ticket c.replicas = .ok (true, later) →
      ids.capacity = c.scheduler.ids.capacity →
      start id c = .ok () (c.started caches id ticket sequence ids) →
      (c.started caches id ticket sequence ids).Owned
        (caches.map fun cache => cache.registered sequence) →
      Meets (startWhile slots test later rest) (c.started caches id ticket sequence ids)
        (fun more => done (id :: more)) stopped) :
    Meets (startWhile slots test notes (id :: rest)) c done stopped := by
  obtain ⟨ticket, found⟩ := owned.consistent.found_of_queued
    (List.mem_append_right c.scheduler.running (front ▸ List.mem_cons_self))
  refine Cluster.startWhile_rule stays (fun absent => ?_) fails
    fun ticket later found room tested => ?_
  · cases absent.symm.trans found
  · refine (start_meets owned front found).with_run.mono ?_ ?_
    · rintro _ _ ⟨⟨sequence, ids, capacity, _, rfl, kept⟩, run⟩
      exact starts ticket later sequence ids found room tested capacity run kept
    · rintro _ d (⟨rfl, rfl, unattached, full⟩ | ⟨rfl, _⟩)
      · exact exhausted room unattached full
      · exact large d

end Turn

/-! ### Preemption -/

/-- A request that can be preempted was fed on every lane and has a token there. -/
theorem checkFed_yields (id : RequestId) (lanes : List Lane) :
    Yields (checkFed id lanes) (fun _ => ∀ lane ∈ lanes, lane.pending = [] ∧ lane.committed ≠ [])
      (fun stop => ∃ lane ∈ lanes, (lane.pending ≠ [] ∨ lane.committed = []) ∧
        stop = .refused (.inconsistent
          (.prefillUnfinished id lane.replica lane.pending.length lane.committed.length))) := by
  unfold checkFed
  cases search : lanes.find? fun lane => !lane.pending.isEmpty || lane.committed.isEmpty with
  | none =>
      intro lane member
      have fed := List.find?_eq_none.mp search lane member
      simpa using fed
  | some lane =>
      have unfed := List.find?_some search
      refine ⟨lane, List.mem_of_find?_eq_some search, ?_, rfl⟩
      simpa using unfed

/-- The cluster after a running request was preempted. -/
def preempted (c : Cluster) (caches : List PagedCache) (id : RequestId) (ticket : Ticket)
    (sequence : SequenceId) : Cluster :=
  { c with
    scheduler := c.scheduler.preempted id ticket
    replicas := (caches.map fun cache => cache.without sequence).map .paged
    trace := Trace.record c.trace id .preempted }

/-- **A preemption.** The request waits again and its sequence is gone, unless one of its lanes was
not fed or has no token. -/
theorem preempt_meets (owned : c.Owned caches) (runs : id ∈ c.scheduler.running)
    (found : c.scheduler.tickets.get? id = some ticket) :
    Meets (preempt id) c
      (fun _ d => ∃ sequence, ticket.primary.sequence = some sequence ∧
        d = c.preempted caches id ticket sequence ∧
        d.Owned (caches.map fun cache => cache.without sequence))
      (fun stop d => d = c ∧ ∃ lane ∈ ticket.lanes,
        (lane.pending ≠ [] ∨ lane.committed = []) ∧ stop = .refused (.inconsistent
          (.prefillUnfinished id lane.replica lane.pending.length lane.committed.length))) := by
  have consistent := owned.consistent
  obtain ⟨sequence, attached⟩ := consistent.sequence_of_running runs found
  have held := (Scheduler.sequenceOf?_of_found found).trans attached
  unfold preempt
  rw [meets_bind]
  refine find_meets found ?_
  rw [meets_bind, meets_liftM]
  refine (checkFed_yields id ticket.lanes).mono ?_ (fun _ unfed => ⟨rfl, unfed⟩)
  intro _ _
  rw [attached]
  rw [meets_bind, meets_record, meets_bind, meets_liftM,
    occupiedLength_of_running consistent runs found, yields_ok, meets_bind, meets_onScheduler,
    Scheduler.meets_onTotals]
  refine (Totals.release_meets (consistent.occupied_le runs found)).mono ?_
    (fun _ _ => False.elim)
  rintro _ _ rfl
  rw [meets_bind, meets_put, meets_bind, meets_onReplicas, owned.replicas,
    meets_iff_of_ok (onEvery_removeSequence (owned.held_of_running runs held)),
    meets_modifyScheduler]
  refine ⟨sequence, rfl, rfl, ?_⟩
  refine owned.removed runs held (consistent.preempted runs found) rfl (fun other differ => ?_) rfl
  show (c.scheduler.preempted id ticket).sequenceOf? other = _
  rw [Scheduler.sequenceOf?_of_insert rfl, if_neg differ]

/-! ### Ending -/

/-- The cluster after a running request ended. -/
def ended (c : Cluster) (caches : List PagedCache) (id : RequestId) (ticket : Ticket)
    (sequence : SequenceId) (ids : SequenceIds) : Cluster :=
  { c with
    scheduler := c.scheduler.ended id ticket ids
    replicas := (caches.map fun cache => cache.without sequence).map .paged }

/-- **The end of a running request.** It is never refused. -/
theorem reclaimOne_meets (owned : c.Owned caches) (runs : id ∈ c.scheduler.running)
    (found : c.scheduler.tickets.get? id = some ticket) :
    Meets (reclaimOne id) c
      (fun _ d => ∃ sequence ids, ticket.primary.sequence = some sequence ∧
        c.scheduler.Frees id ids ∧ d = c.ended caches id ticket sequence ids ∧
        d.Owned (caches.map fun cache => cache.without sequence) ∧
        c.scheduler.totals.prefillLength + ticket.request.inputLength < Count.limit ∧
        c.scheduler.totals.decodeLength + (ticket.primary.committed.length - 1) < Count.limit)
      (fun stop _ => stop = .fault .overflow ∧
        (Count.limit ≤ c.scheduler.totals.prefillLength + ticket.request.inputLength ∨
          Count.limit ≤
            c.scheduler.totals.decodeLength + (ticket.primary.committed.length - 1))) := by
  have consistent := owned.consistent
  obtain ⟨sequence, attached⟩ := consistent.sequence_of_running runs found
  have held := (Scheduler.sequenceOf?_of_found found).trans attached
  have live := (consistent.live sequence).mpr ⟨id, held⟩
  unfold reclaimOne
  rw [meets_bind, meets_get, if_pos runs, meets_bind]
  refine find_meets found ?_
  rw [attached]
  rw [meets_bind, meets_modifyScheduler, meets_bind, meets_onReplicas, owned.replicas,
    meets_iff_of_ok (onEvery_removeSequence (owned.held_of_running runs held)), meets_bind,
    meets_modifyScheduler, meets_bind, meets_onScheduler]
  refine (Scheduler.recycle_meets (s := { c.scheduler with
    running := c.scheduler.running.erase id
    tickets := c.scheduler.tickets.erase id }) consistent.ids live
    (consistent.unheld_of_erase held)).mono ?_ (fun _ _ => False.elim)
  rintro _ _ ⟨ids, sound, capacity, erased, rfl⟩
  rw [meets_onScheduler, Scheduler.meets_onTotals, meets_bind, meets_liftM,
    occupiedLength_of_running consistent runs found, yields_ok, meets_bind]
  refine (Totals.release_meets (consistent.occupied_le runs found)).mono ?_
    (fun _ _ => False.elim)
  rintro _ _ rfl
  refine (Totals.finish_meets _ _ _).mono ?_ (fun _ _ large => large)
  rintro _ _ ⟨prefill, decode, rfl⟩
  have frees := Scheduler.Frees.of_erase consistent.ids held sound capacity erased
  refine ⟨sequence, ids, rfl, frees, rfl, ?_, prefill, decode⟩
  refine owned.removed runs held (consistent.ended runs found frees) rfl (fun other differ => ?_)
    rfl
  show (c.scheduler.ended id ticket ids).sequenceOf? other = _
  rw [Scheduler.sequenceOf?_of_erase rfl, if_neg differ]

/-! ### Reporting -/

/-- **One turn of a round of reports.** The request reports, which is written into it, and the
others follow; it leaves a record if it has something to report. -/
theorem report_rule {tokenizer : Tokenizer} {maxLength : Nat} {rest : List RequestId}
    {done : List StreamRecord → Cluster → Prop} {stopped : Stop → Cluster → Prop}
    (absent : c.scheduler.tickets.get? id = none → stopped (.refused (.requestNotFound id)) c)
    (fails : ∀ ticket stop, c.scheduler.tickets.get? id = some ticket →
      ticket.report tokenizer maxLength = .error stop → stopped stop c)
    (tells : ∀ ticket delta next, c.scheduler.tickets.get? id = some ticket →
      ticket.report tokenizer maxLength = .ok (delta, next) →
      Meets (report tokenizer maxLength rest)
        { c with
          scheduler := { c.scheduler with tickets := c.scheduler.tickets.insert id next } }
        (fun later => done (if delta.isEmpty then later
          else .ofDelta id ticket.request.settings delta :: later))
        stopped) :
    Meets (report tokenizer maxLength (id :: rest)) c done stopped := by
  unfold report
  rw [meets_bind]
  cases found : c.scheduler.tickets.get? id with
  | none =>
      unfold onTicket
      rw [meets_bind, meets_find, Scheduler.ticketOf_of_absent found]
      exact absent found
  | some ticket =>
      rw [meets_onTicket found, Meets, Ticket.ask_eq]
      cases reported : ticket.report tokenizer maxLength with
      | error stop =>
          -- the ticket is written back as it was
          have unchanged := Registry.insert_of_found found
          show stopped stop { c with scheduler := { c.scheduler with tickets := _ } }
          rw [unchanged]
          exact fails ticket stop found reported
      | ok result =>
          obtain ⟨delta, next⟩ := result
          have request := ((Ticket.report_yields ticket tokenizer maxLength).of_ok reported).request
          have there : (c.scheduler.tickets.insert id next).get? id = some next := by
            rw [Registry.get?_insert, if_pos rfl]
          show Meets (find id >>= _) _ done stopped
          rw [meets_bind]
          refine find_meets there ?_
          rw [meets_bind, request]
          refine (tells ticket delta next found reported).mono (fun later d told => ?_)
            (fun _ _ stop => stop)
          by_cases empty : delta.isEmpty = true
          · rw [if_pos empty] at told ⊢
            exact told
          · rw [if_neg empty] at told ⊢
            exact told

/-- **A round**: the reports, which are delivered in one batch, and then the end of whoever
finished. -/
theorem meets_process {tokenizer : Tokenizer} {maxLength : Nat} {ids : List RequestId}
    {done : List RequestId → Cluster → Prop} {stopped : Stop → Cluster → Prop} :
    Meets (process ids tokenizer maxLength) c done stopped ↔
      Meets (report tokenizer maxLength ids) c
        (fun batch d => Meets (reclaim (finishedIn batch))
          { d with delivered := d.delivered ++ [batch] }
          (fun _ e => done (finishedIn batch) e) stopped)
        stopped := by
  unfold process processTo
  rw [meets_bind]
  simp only [meets_bind, meets_deliver, meets_pure]

end ContinuousBatching.Cluster
