/-
**All caches at once.**

When every replica has a cache of blocks, an action on every replica changes each cache alike, and
an action on one replica leaves the others alone.

* `onEvery_addSequence`, `onEvery_removeSequence`: a sequence is registered with every cache, or
  removed from every cache, if none or each of them has it;
* `meets_onReplica_forward`: feeding a sequence on a replica is feeding it in that cache;
* `not_mem_sequenceIds_of_removed`: what a removal from every replica leaves registered, of whatever
  kind the replicas are.
-/

import ContinuousBatching.Proofs.Cache.Paged

namespace ContinuousBatching

variable {caches : List PagedCache} {id : SequenceId}

/-- An action that succeeds on each cache succeeds on all of them. -/
theorem onEvery_paged {action : Action Replica Unit} {result : PagedCache → PagedCache} :
    ∀ {caches : List PagedCache},
      (∀ cache ∈ caches, action (.paged cache) = .ok () (.paged (result cache))) →
      onEvery action (caches.map .paged) = .ok () ((caches.map result).map .paged)
  | [], _ => rfl
  | cache :: rest, succeeds => by
      have later := onEvery_paged fun other member => succeeds other (List.mem_cons_of_mem _ member)
      simp only [List.map_cons, onEvery, succeeds cache List.mem_cons_self, later]

theorem meets_onCache {α : Type} {paged : Action PagedCache α} {unpaged : Action OpenCache α}
    {cache : PagedCache} {done : α → Replica → Prop} {stopped : Stop → Replica → Prop} :
    Meets (Replica.onCache paged unpaged) (.paged cache) done stopped ↔
      Meets paged cache (fun value next => done value (.paged next))
        (fun stop next => stopped stop (.paged next)) := by
  unfold Meets
  cases run : paged cache <;> simp only [Replica.onCache, run]

theorem addSequence_paged {cache : PagedCache} (fresh : cache.sequences.get? id = none) :
    Replica.addSequence id (.paged cache) = .ok () (.paged (cache.registered id)) := by
  refine Meets.run_eq (meets_onCache.mpr ((PagedCache.addSequence_meets cache id).mono ?_ ?_))
  · rintro _ _ ⟨_, rfl⟩
    exact ⟨rfl, rfl⟩
  · rintro _ _ ⟨_, _, present⟩
    exact Registry.get?_eq_none_iff.mp fresh present

theorem removeSequence_paged {cache : PagedCache} (held : id ∈ cache.sequences.keys) :
    Replica.removeSequence id (.paged cache) = .ok () (.paged (cache.without id)) := by
  refine Meets.run_eq (meets_onCache.mpr ((PagedCache.removeSequence_meets cache id).mono ?_ ?_))
  · rintro _ _ ⟨_, rfl⟩
    exact ⟨rfl, rfl⟩
  · rintro _ _ ⟨_, _, absent⟩
    exact Registry.get?_eq_none_iff.mp absent held

/-- A sequence that no cache has is registered with all of them. -/
theorem onEvery_addSequence (fresh : ∀ cache ∈ caches, cache.sequences.get? id = none) :
    onEvery (Replica.addSequence id) (caches.map .paged) =
      .ok () ((caches.map fun cache => cache.registered id).map .paged) :=
  onEvery_paged fun cache member => addSequence_paged (fresh cache member)

/-- A sequence that each cache has is removed from all of them. -/
theorem onEvery_removeSequence (held : ∀ cache ∈ caches, id ∈ cache.sequences.keys) :
    onEvery (Replica.removeSequence id) (caches.map .paged) =
      .ok () ((caches.map fun cache => cache.without id).map .paged) :=
  onEvery_paged fun cache member => removeSequence_paged (held cache member)

/-- Feeding a sequence on a replica is feeding it in that cache. -/
theorem meets_onReplica_forward {place : Nat} {cache : PagedCache} {chunks : List Chunk}
    {done : Sample → List Replica → Prop} {stopped : Stop → List Replica → Prop}
    (there : caches[place]? = some cache) :
    Meets (onReplica place (Replica.forward id chunks)) (caches.map .paged) done stopped ↔
      Meets (PagedCache.forward id chunks) cache
        (fun sample next => done sample ((caches.set place next).map .paged))
        (fun stop next => stopped stop ((caches.set place next).map .paged)) := by
  have step : Meets (onReplica place (Replica.forward id chunks)) (caches.map .paged) done stopped ↔
      Meets (Replica.forward id chunks) (.paged cache)
        (fun sample next => done sample ((caches.map .paged).set place next))
        (fun stop next => stopped stop ((caches.map .paged).set place next)) := by
    unfold Meets
    cases run : Replica.forward id chunks (.paged cache) <;>
      simp only [onReplica, List.getElem?_map, there, Option.map_some, run]
  rw [step, Replica.forward, meets_onCache]
  simp only [List.map_set]

/-! ### Replicas of any kind -/

theorem meets_onCache_unpaged {α : Type} {paged : Action PagedCache α}
    {unpaged : Action OpenCache α} {cache : OpenCache} {done : α → Replica → Prop}
    {stopped : Stop → Replica → Prop} :
    Meets (Replica.onCache paged unpaged) (.unpaged cache) done stopped ↔
      Meets unpaged cache (fun value next => done value (.unpaged next))
        (fun stop next => stopped stop (.unpaged next)) := by
  unfold Meets
  cases run : unpaged cache <;> simp only [Replica.onCache, run]

/-- The sequences that are registered. -/
def Replica.sequenceIds : Replica → List SequenceId
  | .paged cache => cache.sequences.keys
  | .unpaged cache => cache.sequences.keys

/-- A removal takes one sequence out and leaves the others registered. -/
theorem Replica.removeSequence_registers (id : SequenceId) (replica : Replica) :
    Meets (removeSequence id) replica
      (fun _ after => after.sequenceIds = replica.sequenceIds.filter fun other => other ≠ id)
      (fun _ _ => True) := by
  cases replica with
  | paged cache =>
      refine meets_onCache.mpr ((PagedCache.removeSequence_meets cache id).mono ?_
        fun _ _ _ => trivial)
      rintro _ _ ⟨_, rfl⟩
      exact PagedCache.keys_without
  | unpaged cache =>
      refine meets_onCache_unpaged.mpr ?_
      unfold OpenCache.removeSequence
      rw [meets_bind, meets_get]
      split
      · exact cache.sequences.keys_erase id
      · trivial

/-- A sequence that was removed from every replica is registered nowhere, and no other one is new.
-/
theorem not_mem_sequenceIds_of_removed {id : SequenceId} : ∀ {replicas after : List Replica},
    onEvery (Replica.removeSequence id) replicas = .ok () after →
    (∀ replica ∈ after, id ∉ replica.sequenceIds) ∧
      ∀ other, (∀ replica ∈ replicas, other ∉ replica.sequenceIds) →
        ∀ replica ∈ after, other ∉ replica.sequenceIds
  | [], _, removed => by
      cases removed
      exact ⟨fun _ member => absurd member List.not_mem_nil, fun _ absent => absent⟩
  | replica :: rest, _, removed => by
      have registers := replica.removeSequence_registers id
      unfold onEvery at removed
      cases first : Replica.removeSequence id replica with
      | error =>
          rw [first] at removed
          cases removed
      | ok value next =>
          rw [meets_iff_of_ok first] at registers
          rw [first] at removed
          cases later : onEvery (Replica.removeSequence id) rest with
          | error =>
              rw [later] at removed
              cases removed
          | ok value others =>
              rw [later] at removed
              cases removed
              obtain ⟨gone, kept⟩ := not_mem_sequenceIds_of_removed later
              refine ⟨List.forall_mem_cons.mpr ⟨?_, gone⟩, fun other absent => ?_⟩
              · rw [registers]
                simp
              · obtain ⟨here, there⟩ := List.forall_mem_cons.mp absent
                refine List.forall_mem_cons.mpr ⟨?_, kept other there⟩
                rw [registers]
                exact fun member => here (List.mem_of_mem_filter member)

/-- A place without a replica is out of range. -/
theorem onReplica_out_of_range {place : Nat} {α : Type} {action : Action Replica α}
    (missing : caches[place]? = none) :
    onReplica place action (caches.map .paged) =
      .error (.fault .outOfRange) (caches.map .paged) := by
  unfold onReplica
  rw [List.getElem?_map, missing]
  rfl

end ContinuousBatching
