/-
**The scheduler and its caches agree.**

A cluster whose replicas have caches of blocks is in order (`Cluster.Owned`) if the bookkeeping of
its scheduler is consistent, each cache is sound, and the sequences of each cache are exactly those
of the running requests. It stays in order when

* `Owned.of_scheduler`: the scheduler changes but for its running requests and their sequences;
* `Owned.started`: a request starts, and its sequence is registered with every cache;
* `Owned.removed`: a request stops running, and its sequence is removed from every cache;
* `Owned.written`: a sequence is fed in one cache.
-/

import ContinuousBatching.Proofs.Cache.Replicas
import ContinuousBatching.Proofs.Scheduler.Actions

namespace ContinuousBatching

/-- The cache of blocks of a replica, if it has one. -/
def Replica.paged? : Replica → Option PagedCache
  | .paged cache => some cache
  | .unpaged _ => none

namespace Cluster

/-- The caches of blocks of the replicas. -/
def caches (c : Cluster) : List PagedCache := c.replicas.filterMap Replica.paged?

/-- The caches belong to the replicas, are sound, and hold the sequences of the running requests
and no others; the bookkeeping is consistent. -/
structure Owned (c : Cluster) (caches : List PagedCache) : Prop where
  replicas : c.replicas = caches.map .paged
  consistent : c.scheduler.Consistent
  sound : ∀ cache ∈ caches, cache.Sound
  registered : ∀ cache ∈ caches, ∀ sequence, sequence ∈ cache.sequences.keys ↔
    ∃ id ∈ c.scheduler.running, c.scheduler.sequenceOf? id = some sequence

namespace Owned

variable {c d : Cluster} {caches : List PagedCache} {id : RequestId} {ticket : Ticket}
  {sequence : SequenceId}

theorem caches_eq (owned : c.Owned caches) : c.caches = caches := by
  rw [Cluster.caches, owned.replicas, List.filterMap_map]
  exact List.filterMap_some

theorem held_of_running (owned : c.Owned caches) (runs : id ∈ c.scheduler.running)
    (held : c.scheduler.sequenceOf? id = some sequence) :
    ∀ cache ∈ caches, sequence ∈ cache.sequences.keys := fun cache member =>
  (owned.registered cache member sequence).mpr ⟨id, runs, held⟩

/-- A sequence that no running request holds is in no cache. -/
theorem absent_of_unheld (owned : c.Owned caches)
    (unheld : ∀ other ∈ c.scheduler.running, c.scheduler.sequenceOf? other ≠ some sequence) :
    ∀ cache ∈ caches, cache.sequences.get? sequence = none := by
  intro cache member
  rw [Registry.get?_eq_none_iff, owned.registered cache member]
  rintro ⟨other, runs, held⟩
  exact unheld other runs held

/-- The sequence of a running request is found in every cache. -/
theorem found_of_running (owned : c.Owned caches) (runs : id ∈ c.scheduler.running)
    (held : c.scheduler.sequenceOf? id = some sequence) :
    ∀ cache ∈ caches, ∃ written, cache.sequences.get? sequence = some written :=
  fun cache member => Registry.mem_keys_iff.mp (owned.held_of_running runs held cache member)

theorem of_scheduler (owned : c.Owned caches) (replicas : d.replicas = c.replicas)
    (consistent : d.scheduler.Consistent) (running : d.scheduler.running = c.scheduler.running)
    (sequences : ∀ id ∈ c.scheduler.running,
      d.scheduler.sequenceOf? id = c.scheduler.sequenceOf? id) : d.Owned caches := by
  refine ⟨replicas.trans owned.replicas, consistent, owned.sound, fun cache member held => ?_⟩
  rw [owned.registered cache member, running]
  constructor
  · rintro ⟨id, runs, found⟩
    exact ⟨id, runs, (sequences id runs).trans found⟩
  · rintro ⟨id, runs, found⟩
    exact ⟨id, runs, (sequences id runs).symm.trans found⟩

theorem congr (owned : c.Owned caches) (replicas : d.replicas = c.replicas)
    (scheduler : d.scheduler = c.scheduler) : d.Owned caches :=
  owned.of_scheduler replicas (scheduler ▸ owned.consistent) (by rw [scheduler])
    (fun _ _ => by rw [scheduler])

/-- A request's ticket is replaced by one with the same sequence. -/
theorem put {new : Ticket} (owned : c.Owned caches)
    (found : c.scheduler.tickets.get? id = some ticket)
    (same : new.primary.sequence = ticket.primary.sequence) (replicas : d.replicas = c.replicas)
    (consistent : d.scheduler.Consistent) (running : d.scheduler.running = c.scheduler.running)
    (tickets : d.scheduler.tickets = c.scheduler.tickets.insert id new) : d.Owned caches := by
  refine owned.of_scheduler replicas consistent running fun other _ => ?_
  rw [Scheduler.sequenceOf?_of_insert tickets, same]
  split
  · rename_i here
    rw [here, Scheduler.sequenceOf?_of_found found]
  · rfl

theorem started (owned : c.Owned caches) {rest : List RequestId} {ids : SequenceIds}
    (front : c.scheduler.waiting = id :: rest)
    (unheld : ∀ other ∈ c.scheduler.running, c.scheduler.sequenceOf? other ≠ some sequence)
    (consistent : d.scheduler.Consistent)
    (scheduler : d.scheduler = c.scheduler.started id ticket sequence ids)
    (replicas : d.replicas = (caches.map fun cache => cache.registered sequence).map .paged) :
    d.Owned (caches.map fun cache => cache.registered sequence) := by
  have fresh := owned.absent_of_unheld unheld
  have idle : id ∉ c.scheduler.running := fun runs =>
    owned.consistent.not_waiting_of_running runs (front ▸ List.mem_cons_self)
  have sequences : ∀ other, d.scheduler.sequenceOf? other =
      if other = id then some sequence else c.scheduler.sequenceOf? other := fun other => by
    rw [scheduler, Scheduler.sequenceOf?_of_insert rfl]
    rfl
  have running : d.scheduler.running = c.scheduler.running ++ [id] := by
    rw [scheduler]
    rfl
  refine ⟨replicas, consistent, fun cache member => ?_, fun cache member held => ?_⟩
  · obtain ⟨before, there, rfl⟩ := List.mem_map.mp member
    exact (owned.sound before there).registered (fresh before there)
  · obtain ⟨before, there, rfl⟩ := List.mem_map.mp member
    show held ∈ (before.sequences.insert sequence _).keys ↔ _
    rw [Registry.mem_keys_insert, owned.registered before there, running]
    constructor
    · rintro (rfl | ⟨other, runs, found⟩)
      · exact ⟨id, List.mem_append_right _ List.mem_cons_self, by rw [sequences, if_pos rfl]⟩
      · have differ : other ≠ id := fun same => idle (same ▸ runs)
        exact ⟨other, List.mem_append_left _ runs, by rw [sequences, if_neg differ, found]⟩
    · rintro ⟨other, runs, found⟩
      rw [sequences] at found
      split at found
      · exact Or.inl (Option.some.inj found).symm
      · rename_i differ
        rcases List.mem_append.mp runs with runs | new
        · exact Or.inr ⟨other, runs, found⟩
        · exact absurd (List.mem_singleton.mp new) differ

theorem removed (owned : c.Owned caches) (runs : id ∈ c.scheduler.running)
    (held : c.scheduler.sequenceOf? id = some sequence) (consistent : d.scheduler.Consistent)
    (running : d.scheduler.running = c.scheduler.running.erase id)
    (sequences : ∀ other, other ≠ id →
      d.scheduler.sequenceOf? other = c.scheduler.sequenceOf? other)
    (replicas : d.replicas = (caches.map fun cache => cache.without sequence).map .paged) :
    d.Owned (caches.map fun cache => cache.without sequence) := by
  refine ⟨replicas, consistent, fun cache member => ?_, fun cache member other => ?_⟩
  · obtain ⟨before, there, rfl⟩ := List.mem_map.mp member
    exact (owned.sound before there).without
  · obtain ⟨before, there, rfl⟩ := List.mem_map.mp member
    rw [Registry.mem_keys_iff]
    simp only [PagedCache.get?_without, running,
      owned.consistent.nodup_running.mem_erase_iff]
    by_cases own : other = sequence
    · subst own
      simp only [if_true, reduceCtorEq, exists_false, false_iff]
      rintro ⟨holder, ⟨differ, _⟩, found⟩
      rw [sequences holder differ] at found
      exact differ (owned.consistent.owner holder id other found held)
    · simp only [own, if_false]
      rw [← Registry.mem_keys_iff, owned.registered before there]
      constructor
      · rintro ⟨holder, runs, found⟩
        have differ : holder ≠ id := by
          rintro rfl
          exact own (Option.some.inj (found.symm.trans held))
        exact ⟨holder, ⟨differ, runs⟩, (sequences holder differ).trans found⟩
      · rintro ⟨holder, ⟨differ, runs⟩, found⟩
        exact ⟨holder, runs, (sequences holder differ).symm.trans found⟩

theorem written (owned : c.Owned caches) {place : Nat} {cache : PagedCache}
    {fed : PagedSequence} {chunks : List Chunk} (there : caches[place]? = some cache)
    (found : cache.sequences.get? sequence = some fed)
    (enough : fed.lacks chunks ≤ cache.pool.freeCount) (scheduler : d.scheduler = c.scheduler)
    (replicas : d.replicas = (caches.set place (cache.written sequence fed chunks)).map .paged) :
    d.Owned (caches.set place (cache.written sequence fed chunks)) := by
  have member : cache ∈ caches := List.mem_of_getElem? there
  refine ⟨replicas, scheduler ▸ owned.consistent, fun other in_ => ?_, fun other in_ held => ?_⟩
  · rcases List.mem_or_eq_of_mem_set in_ with old | rfl
    · exact owned.sound other old
    · exact (owned.sound cache member).written found enough
  · rw [scheduler]
    rcases List.mem_or_eq_of_mem_set in_ with old | rfl
    · exact owned.registered other old held
    · show held ∈ (cache.sequences.insert sequence _).keys ↔ _
      rw [Registry.keys_insert_of_mem (Registry.mem_keys_iff.mpr ⟨fed, found⟩)]
      exact owned.registered cache member held

end Owned

end Cluster

end ContinuousBatching
