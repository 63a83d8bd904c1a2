/-
**Preempted requests never use the sequence ids up.**

A preempted request keeps its sequence id while it waits, so that as many ids can be live as there
are although few requests run. Admission goes on nevertheless: whoever retained an id waits in front
of everybody who never had one (`Scheduler.Retentive`), and gives the id back just before a new one
is handed out.

* `Scheduler.Consistent.liveCount_eq`: the live ids are those of the running requests and those that
  waiting ones retained (`Scheduler.retaining`);
* `Scheduler.Retentive.retaining_prefix`: the latter stand at the front of the waiting queue;
* `Scheduler.Change.retentive`: every change of the bookkeeping keeps that order;
* `Cluster.start_never_refused`: so after every history a call that admits requests into no more
  slots than there are ids is not refused.
-/

import ContinuousBatching.Proofs.Scheduler.Histories
import Mathlib.Data.List.Nodup

namespace ContinuousBatching

/-- If what fails a test is only followed by what fails it, the elements that pass come first. -/
theorem filter_prefix_of_pairwise {α : Type} {test : α → Bool} {list : List α}
    (order : list.Pairwise fun first second => test first = false → test second = false) :
    list.filter test <+: list := by
  induction list with
  | nil => exact List.prefix_refl []
  | cons a rest ih =>
      rw [List.pairwise_cons] at order
      by_cases passes : test a = true
      · rw [List.filter_cons_of_pos passes]
        exact List.cons_prefix_cons.mpr ⟨rfl, ih order.2⟩
      · have none : (a :: rest).filter test = [] := by
          refine List.filter_eq_nil_iff.mpr fun b member => ?_
          rcases List.mem_cons.mp member with rfl | later
          · exact passes
          · rw [order.1 b later (Bool.eq_false_iff.mpr passes)]
            exact Bool.false_ne_true
        rw [none]
        exact List.nil_prefix

namespace Scheduler

variable {s t : Scheduler} {id : RequestId} {ticket : Ticket} {sequence : SequenceId}
  {ids : SequenceIds}

/-- The waiting requests that retained the sequence id with which they ran. -/
def retaining (s : Scheduler) : List RequestId :=
  s.waiting.filter fun id => (s.sequenceOf? id).isSome

/-- Nobody who retained a sequence id waits behind somebody who has none. -/
def Retentive (s : Scheduler) : Prop :=
  s.waiting.Pairwise fun first second =>
    s.sequenceOf? first = none → s.sequenceOf? second = none

/-- **The live ids** are as many as the requests that run or retained one. -/
theorem Consistent.liveCount_eq (consistent : s.Consistent) :
    s.ids.liveCount = s.running.length + s.retaining.length := by
  have nodup : ((s.running ++ s.waiting).filterMap s.sequenceOf?).Nodup :=
    List.Nodup.filterMap (fun first second sequence held held' =>
      consistent.owner first second sequence held held') consistent.nodup
  have live : s.ids.live.Perm ((s.running ++ s.waiting).filterMap s.sequenceOf?) := by
    refine (List.perm_ext_iff_of_nodup consistent.ids.nodup_live nodup).mpr fun sequence => ?_
    rw [consistent.live, List.mem_filterMap]
    constructor
    · rintro ⟨id, held⟩
      obtain ⟨ticket, found, _⟩ := sequenceOf?_eq_some_iff.mp held
      exact ⟨id, consistent.queued_of_found found, held⟩
    · rintro ⟨id, _, held⟩
      exact ⟨id, held⟩
  have running : s.running.countP (fun id => (s.sequenceOf? id).isSome) = s.running.length :=
    List.countP_eq_length.mpr fun id runs =>
      Option.isSome_iff_ne_none.mpr (consistent.attached id runs)
  rw [SequenceIds.liveCount, live.length_eq, List.length_filterMap_eq_countP, List.countP_append,
    running, List.countP_eq_length_filter, retaining]

namespace Retentive

/-- **Whoever retained an id waits at the front.** -/
theorem retaining_prefix (retentive : s.Retentive) : s.retaining <+: s.waiting := by
  refine filter_prefix_of_pairwise (List.Pairwise.imp (fun {first second} order unattached => ?_)
    retentive)
  rw [Option.isSome_eq_false_iff, Option.isNone_iff_eq_none] at unattached ⊢
  exact order unattached

/-- If the request at the front has no id, nobody retained one. -/
theorem retaining_eq_nil (retentive : s.Retentive) {rest : List RequestId}
    (front : s.waiting = id :: rest) (unattached : s.sequenceOf? id = none) :
    s.retaining = [] := by
  have order := retentive
  rw [Retentive, front, List.pairwise_cons] at order
  refine List.filter_eq_nil_iff.mpr fun other waits => ?_
  rw [front] at waits
  have none : s.sequenceOf? other = none := by
    rcases List.mem_cons.mp waits with rfl | later
    · exact unattached
    · exact order.1 other later unattached
  rw [none]
  exact Bool.false_ne_true

/-- If the request at the front has no id, only running requests have one. -/
theorem length_live_le (retentive : s.Retentive) (consistent : s.Consistent)
    {rest : List RequestId} (front : s.waiting = id :: rest)
    (unattached : s.sequenceOf? id = none) : s.ids.live.length ≤ s.running.length := by
  have count := consistent.liveCount_eq
  rw [retentive.retaining_eq_nil front unattached, List.length_nil, Nat.add_zero] at count
  exact Nat.le_of_eq count

/-- Requests whose sequences stay the same wait in the same order. -/
theorem of_sublist (retentive : s.Retentive) (waiting : t.waiting.Sublist s.waiting)
    (same : ∀ other ∈ t.waiting, t.sequenceOf? other = s.sequenceOf? other) : t.Retentive := by
  refine (retentive.sublist waiting).imp_of_mem fun first second order => ?_
  rw [same _ first, same _ second]
  exact order

theorem put (retentive : s.Retentive) {new : Ticket} {totals : Totals}
    (found : s.tickets.get? id = some ticket)
    (same : new.primary.sequence = ticket.primary.sequence) :
    Retentive { s with tickets := s.tickets.insert id new, totals := totals } := by
  refine retentive.of_sublist (List.Sublist.refl _) fun other _ => ?_
  rw [sequenceOf?_of_insert rfl, same]
  split
  · rename_i here
    rw [here, sequenceOf?_of_found found]
  · rfl

theorem added (retentive : s.Retentive) (consistent : s.Consistent)
    (fresh : id ∉ s.tickets.keys) (unattached : ticket.primary.sequence = none) :
    (s.added id ticket).Retentive := by
  have sequences : ∀ other, (s.added id ticket).sequenceOf? other =
      if other = id then none else s.sequenceOf? other := fun other => by
    rw [sequenceOf?_of_insert rfl, unattached]
  have unqueued : id ∉ s.waiting := fun waits =>
    fresh ((consistent.known id).mp (List.mem_append_right _ waits))
  show (s.waiting ++ [id]).Pairwise _
  rw [List.pairwise_append]
  refine ⟨List.Pairwise.imp_of_mem (fun {first second} member member' order => ?_) retentive,
    List.pairwise_singleton .., fun first _ second member _ => ?_⟩
  · have differ : first ≠ id := fun same => unqueued (same ▸ member)
    have differ' : second ≠ id := fun same => unqueued (same ▸ member')
    rw [sequences, sequences, if_neg differ, if_neg differ']
    exact order
  · rw [List.mem_singleton.mp member, sequences, if_pos rfl]

theorem started (retentive : s.Retentive) (consistent : s.Consistent) {rest : List RequestId}
    (front : s.waiting = id :: rest) : (s.started id ticket sequence ids).Retentive := by
  have nodup := consistent.nodup_waiting
  rw [front, List.nodup_cons] at nodup
  refine retentive.of_sublist (List.tail_sublist _) fun other waits => ?_
  have differ : other ≠ id := by
    rintro rfl
    replace waits : other ∈ s.waiting.tail := waits
    rw [front, List.tail_cons] at waits
    exact nodup.1 waits
  rw [sequenceOf?_of_insert rfl, if_neg differ]

theorem preempted (retentive : s.Retentive) (consistent : s.Consistent) (runs : id ∈ s.running)
    (found : s.tickets.get? id = some ticket) : (s.preempted id ticket).Retentive := by
  have others : ∀ other ∈ s.waiting,
      (s.preempted id ticket).sequenceOf? other = s.sequenceOf? other := fun other waits => by
    have differ : other ≠ id := fun same => consistent.not_waiting_of_running runs (same ▸ waits)
    rw [sequenceOf?_of_insert rfl, if_neg differ]
  obtain ⟨sequence, attached⟩ := consistent.sequence_of_running runs found
  show (id :: s.waiting).Pairwise _
  refine List.pairwise_cons.mpr ⟨fun other _ unattached => ?_,
    List.Pairwise.imp_of_mem (fun {first second} member member' order => ?_) retentive⟩
  · rw [sequenceOf?_of_insert rfl, if_pos rfl] at unattached
    exact absurd (attached.symm.trans unattached) (Option.some_ne_none sequence)
  · rw [others _ member, others _ member']
    exact order

theorem dropped (retentive : s.Retentive) (consistent : s.Consistent) :
    (s.dropped id ids).Retentive := by
  refine retentive.of_sublist List.erase_sublist fun other waits => ?_
  have differ : other ≠ id := (consistent.nodup_waiting.mem_erase_iff.mp waits).1
  rw [sequenceOf?_of_erase rfl, if_neg differ]

theorem ended (retentive : s.Retentive) (consistent : s.Consistent) (runs : id ∈ s.running) :
    (s.ended id ticket ids).Retentive := by
  refine retentive.of_sublist (List.Sublist.refl _) fun other waits => ?_
  have differ : other ≠ id := fun same => consistent.not_waiting_of_running runs (same ▸ waits)
  rw [sequenceOf?_of_erase rfl, if_neg differ]

end Retentive

/-- **One change.** -/
theorem Change.retentive (change : s.Change t) (consistent : s.Consistent)
    (retentive : s.Retentive) : t.Retentive := by
  cases change with
  | put found same => exact retentive.put found same
  | added fresh => exact retentive.added consistent fresh rfl
  | started front found capacity => exact retentive.started consistent front
  | preempted runs found => exact retentive.preempted consistent runs found
  | dropped waits frees => exact retentive.dropped consistent
  | ended runs found frees => exact retentive.ended consistent runs

theorem Change.capacity_eq (change : s.Change t) : t.ids.capacity = s.ids.capacity := by
  cases change with
  | put | added | preempted => rfl
  | started _ _ capacity => exact capacity
  | dropped _ frees | ended _ _ frees => exact frees.capacity

end Scheduler

namespace Cluster

variable {c d : Cluster} {caches : List PagedCache}

/-- What was retained in order is so still, and there are as many ids. -/
theorem Evolves.retentive (evolves : c.Evolves d) (retentive : c.scheduler.Retentive) :
    d.scheduler.Retentive ∧ d.scheduler.ids.capacity = c.scheduler.ids.capacity := by
  obtain ⟨_, changes⟩ := evolves
  generalize d.scheduler = t at changes
  induction changes with
  | refl => exact ⟨retentive, rfl⟩
  | tail _ step ih =>
      obtain ⟨consistent, change⟩ := step
      exact ⟨change.retentive consistent ih.1, change.capacity_eq.trans ih.2⟩

/-- **Admission into no more slots than there are ids** is not refused. The requests still to be
looked at are the waiting ones: either the front one gives an id back before it takes one, or only
running requests hold ids, and they are fewer than the slots. -/
theorem startWhile_unrefused {π : Type} {slots : Nat}
    {accepts : π → Ticket → List Replica → Bool × π} :
    ∀ (list : List RequestId) (notes : π) (c : Cluster), c.InOrder → c.scheduler.Retentive →
      slots ≤ c.scheduler.ids.capacity → c.scheduler.waiting = list →
      Meets (startWhile slots (fun notes ticket replicas => .ok (accepts notes ticket replicas))
        notes list) c (fun _ _ => True) (fun stop _ => stop = .fault .overflow)
  | [], _, _, _, _, _, _ => trivial
  | id :: rest, notes, c, ⟨caches, owned⟩, retentive, roomy, front => by
      refine owned.startWhile_rule front (fun _ => trivial) (fun _ _ _ failed => by cases failed)
        (fun room unattached full => ?_) (fun _ => rfl) ?_
      · have live := retentive.length_live_le owned.consistent front unattached
        omega
      · intro ticket later sequence ids _ _ _ capacity _ kept
        exact startWhile_unrefused rest later _ ⟨_, kept⟩
          (retentive.started owned.consistent front)
          (Nat.le_trans roomy (Nat.le_of_eq capacity.symm)) (waiting_started front)

/-- **Ids over any history.** Start without requests and with fresh caches, and let any operations
be carried out or refused, in any order. The live ids are as many as the running requests and the
waiting ones that retained an id, and the latter stand at the front of the waiting queue. An
admission into no more slots than there are ids is not refused, and only a length of more than 64
bits stops it. -/
theorem start_never_refused {capacity lanes : Nat} (fresh : ∀ cache ∈ caches, cache.IsFresh)
    {operations : List Operation}
    (ended : (ofReplicas (caches.map .paged) lanes (.ofCapacity capacity)).after operations =
      some c) :
    c.scheduler.retaining <+: c.scheduler.waiting ∧
      c.scheduler.ids.liveCount = c.scheduler.running.length + c.scheduler.retaining.length ∧
      ∀ (π : Type) (slots : Nat) (accepts : π → Ticket → List Replica → Bool × π) (notes : π),
        slots ≤ capacity → Meets (Operation.run (.start slots accepts notes)) c (fun _ _ => True)
          (fun stop _ => stop = .fault .overflow) := by
  have evolves := evolves_after ⟨caches, owned_ofReplicas fresh lanes capacity⟩ ended
  obtain ⟨retentive, ids⟩ := evolves.retentive List.Pairwise.nil
  obtain ⟨held, owned⟩ := evolves.inOrder
  refine ⟨retentive.retaining_prefix, owned.consistent.liveCount_eq,
    fun π slots accepts notes roomy => ?_⟩
  unfold Operation.run
  rw [meets_discard]
  exact startWhile_unrefused c.scheduler.waiting notes c ⟨held, owned⟩ retentive
    (Nat.le_trans roomy (Nat.le_of_eq ids.symm)) rfl

/-- A history in which two requests are fed, sent back to wait and retain both ids that there are,
in front of a third one. -/
def retainingHistory : List Operation :=
  let request (id : RequestId) : Request := ⟨id, [.tokens [1, 2, 3]], .usual⟩
  [.add (request "a"), .add (request "b"), .add (request "c"),
    .start 2 (fun _ _ _ => (true, ())) (),
    .changeLane "a" 0 .takeInputs, .commit "a" 0 (.plain 3 .one),
    .changeLane "b" 0 .takeInputs, .commit "b" 0 (.plain 4 .one), .preemptLast, .preemptLast]

theorem start_never_refused_retaining :
    (∀ cache ∈ [PagedCache.ofSize "only" 8 2 countTokens], cache.IsFresh) ∧
    ∃ c, (ofReplicas ([PagedCache.ofSize "only" 8 2 countTokens].map .paged) 1
        (.ofCapacity 2)).after retainingHistory = some c ∧
      c.scheduler.running = [] ∧ c.scheduler.retaining = ["a", "b"] ∧
      c.scheduler.retaining <+: c.scheduler.waiting ∧
      c.scheduler.ids.liveCount = c.scheduler.running.length + c.scheduler.retaining.length ∧
      ∀ (π : Type) (accepts : π → Ticket → List Replica → Bool × π) (notes : π),
        Meets (Operation.run (.start 2 accepts notes)) c (fun _ _ => True)
          (fun stop _ => stop = .fault .overflow) := by
  have fresh : ∀ cache ∈ [PagedCache.ofSize "only" 8 2 countTokens], cache.IsFresh := by
    simp [PagedCache.IsFresh, PagedCache.ofSize, BlockPool.ofSize]
  have queues : ((ofReplicas ([PagedCache.ofSize "only" 8 2 countTokens].map .paged) 1
      (.ofCapacity 2)).after retainingHistory).map
        (fun c => (c.scheduler.running, c.scheduler.retaining)) = some ([], ["a", "b"]) := by
    decide +kernel
  obtain ⟨c, ended, same⟩ := Option.map_eq_some_iff.mp queues
  obtain ⟨running, retaining⟩ := Prod.mk.inj same
  obtain ⟨front, live, starts⟩ := start_never_refused fresh ended
  exact ⟨fresh, c, ended, running, retaining, front, live,
    fun π accepts notes => starts π 2 accepts notes (Nat.le_refl 2)⟩

end Cluster

end ContinuousBatching
