/-
**The capacity checks are exact.**

`canFit` and `canDecode` add up the blocks that sequences need and compare the sum with the number
of free blocks. Where no count needs more than 64 bits they answer exactly that comparison:

* `PagedCache.canFit_yields`: new sequences of these lengths fit together;
* `PagedCache.canDecode_yields`: every one of these sequences is there and can be fed one position
  more (`PagedCache.lacksOne` counts the blocks it lacks for that, none or one);
* `PagedCache.Sound.freeCount_add`: every block is free that the sequences do not take.
-/

import ContinuousBatching.Proofs.Cache.Paged

namespace ContinuousBatching.PagedCache

variable {cache : PagedCache} {id : SequenceId} {sequence : PagedSequence}

/-- The number of blocks that a sequence lacks for one position more. -/
def lacksOne (cache : PagedCache) (id : SequenceId) : Nat :=
  ((cache.sequences.get? id).map fun sequence => sequence.table.shortfall 1).getD 0

theorem lacksOne_of_found (found : cache.sequences.get? id = some sequence) :
    cache.lacksOne id = sequence.table.shortfall 1 := by
  rw [lacksOne, found]
  rfl

/-- New sequences take no more blocks than positions. -/
theorem sum_ceilDiv_le (lengths : List Nat) (size : Nat) :
    (lengths.map fun length => length ⌈/⌉ size).sum ≤ lengths.sum := by
  have smaller : (lengths.map fun length => length ⌈/⌉ size).sum ≤ (lengths.map id).sum :=
    List.sum_le_sum fun length _ => Count.ceilDiv_le_self length _
  rwa [List.map_id] at smaller

/-- The blocks that new sequences of these lengths take together are compared with the free ones. -/
theorem canFit_yields (divided : 0 < cache.pool.blockSize) (lengths : List Nat) :
    Yields (cache.canFit lengths)
      (fun answer => answer = true ↔
        (lengths.map fun length => length ⌈/⌉ cache.pool.blockSize).sum ≤ cache.pool.freeCount)
      (Overflows (lengths.map fun length => length ⌈/⌉ cache.pool.blockSize).sum) := by
  have counted : lengths.mapM (fun length => Count.blocksFor length cache.pool.blockSize) =
      .ok (lengths.map fun length => length ⌈/⌉ cache.pool.blockSize) :=
    mapM_eq_map fun length _ =>
      Count.blocksFor_eq_ok_iff.mpr ⟨Nat.pos_iff_ne_zero.mp divided, rfl⟩
  unfold canFit blocksForAll
  rw [yields_bind, counted, yields_bind, yields_ok]
  refine (Count.sum_yields _).mono ?_ (fun _ overflow => overflow)
  rintro _ ⟨rfl, _⟩
  rw [yields_pure, BlockPool.canAllocate, decide_eq_true_iff]

/-- The reason why the blocks for one position more of each sequence cannot be counted. -/
def DecodeOverflows (cache : PagedCache) (blocks : Nat) (ids : List SequenceId) (stop : Stop) :
    Prop :=
  Overflows (blocks + (ids.map cache.lacksOne).sum) stop ∨
    ∃ id ∈ ids, ∃ sequence, cache.sequences.get? id = some sequence ∧
      Overflows (sequence.table.length + 1) stop

/-- The blocks are added up if every sequence is there, and there is no sum otherwise. -/
theorem decodeNeed_yields (sound : cache.Sound) (divided : 0 < cache.pool.blockSize) :
    ∀ (ids : List SequenceId) (blocks : Nat),
      Yields (cache.decodeNeed blocks ids)
        (fun need => ((∀ id ∈ ids, id ∈ cache.sequences.keys) ∧
            need = some (blocks + (ids.map cache.lacksOne).sum)) ∨
          ((∃ id ∈ ids, id ∉ cache.sequences.keys) ∧ need = none))
        (cache.DecodeOverflows blocks ids)
  | [], blocks => Or.inl ⟨fun _ member => absurd member List.not_mem_nil, rfl⟩
  | id :: rest, blocks => by
      cases found : cache.sequences.get? id with
      | none =>
          unfold decodeNeed
          rw [found]
          exact Or.inr ⟨⟨id, List.mem_cons_self, Registry.get?_eq_none_iff.mp found⟩, rfl⟩
      | some sequence =>
          have lacks := lacksOne_of_found found
          unfold decodeNeed
          rw [found]
          dsimp only
          rw [yields_bind]
          refine (BlockTable.needed_yields sequence.table 1).mono ?_ ?_
          · rintro _ ⟨rfl, _⟩
            rw [yields_bind]
            refine (Count.add_yields _ _).mono ?_ ?_
            · rintro _ ⟨rfl, _⟩
              refine (decodeNeed_yields sound divided rest _).mono ?_ ?_
              · rintro _ (⟨known, rfl⟩ | ⟨⟨other, member, absent⟩, rfl⟩)
                · have here := Registry.mem_keys_iff.mpr ⟨sequence, found⟩
                  refine Or.inl ⟨List.forall_mem_cons.mpr ⟨here, known⟩, ?_⟩
                  rw [List.map_cons, List.sum_cons, lacks, Nat.add_assoc]
                · exact Or.inr ⟨⟨other, List.mem_cons_of_mem id member, absent⟩, rfl⟩
              · rintro stop (sum | ⟨other, member, there⟩)
                · rw [Nat.add_assoc, ← lacks] at sum
                  exact Or.inl sum
                · exact Or.inr ⟨other, List.mem_cons_of_mem id member, there⟩
            · rintro _ ⟨rfl, large⟩
              refine Or.inl ⟨rfl, Nat.le_trans large ?_⟩
              rw [List.map_cons, List.sum_cons, lacks]
              omega
          · rintro _ (⟨rfl, large⟩ | ⟨_, zero⟩)
            · exact Or.inr ⟨id, List.mem_cons_self, sequence, found, rfl, large⟩
            · rw [(sound.sized id sequence found).1] at zero
              omega

/-- The blocks that these sequences lack for one position more each are compared with the free
ones, if every sequence is there. -/
theorem canDecode_yields (sound : cache.Sound) (divided : 0 < cache.pool.blockSize)
    (ids : List SequenceId) :
    Yields (cache.canDecode ids)
      (fun answer => answer = true ↔ (∀ id ∈ ids, id ∈ cache.sequences.keys) ∧
        (ids.map cache.lacksOne).sum ≤ cache.pool.freeCount)
      (cache.DecodeOverflows 0 ids) := by
  unfold canDecode
  rw [yields_bind]
  refine (decodeNeed_yields sound divided ids 0).mono ?_ (fun _ overflows => overflows)
  rintro _ (⟨known, rfl⟩ | ⟨⟨id, member, absent⟩, rfl⟩)
  · rw [yields_pure, Option.any_some, BlockPool.canAllocate, decide_eq_true_iff, Nat.zero_add,
      and_iff_right known]
  · rw [yields_pure, Option.any_none]
    exact iff_of_false Bool.false_ne_true fun both => absent (both.1 id member)

/-- Every block is free or in the table of a sequence, and a table has the blocks that its positions
take. -/
theorem Sound.freeCount_add (sound : cache.Sound) :
    cache.pool.freeCount + (cache.sequences.values.map fun sequence =>
      sequence.table.length ⌈/⌉ cache.pool.blockSize).sum = cache.pool.blockCount := by
  have sizes : cache.tableBlocks.length = (cache.sequences.values.map fun sequence =>
      sequence.table.length ⌈/⌉ cache.pool.blockSize).sum := by
    rw [tableBlocks, List.length_flatMap]
    refine sum_map_congr fun sequence member => ?_
    obtain ⟨id, found⟩ := Registry.mem_values_iff.mp member
    exact (sound.sized id sequence found).2
  have cover := sound.pool.length_eq
  rw [List.length_append, List.length_range, sound.used.length_eq, sizes] at cover
  rw [BlockPool.freeCount, Nat.add_comm]
  exact cover

/-- Two caches of the same size with the same sequences have as many free blocks. -/
theorem Sound.freeCount_congr {other : PagedCache} (sound : cache.Sound) (sound' : other.Sound)
    (blockSize : other.pool.blockSize = cache.pool.blockSize)
    (blockCount : other.pool.blockCount = cache.pool.blockCount)
    (sequences : ∀ id, other.sequences.get? id = cache.sequences.get? id) :
    other.pool.freeCount = cache.pool.freeCount := by
  have here := sound.freeCount_add
  have there := sound'.freeCount_add
  have same : (other.sequences.values.map fun sequence =>
        sequence.table.length ⌈/⌉ cache.pool.blockSize).sum =
      (cache.sequences.values.map fun sequence =>
        sequence.table.length ⌈/⌉ cache.pool.blockSize).sum :=
    Registry.sum_values_congr fun id => by rw [sequences]
  rw [blockSize, blockCount, same] at there
  omega

/-- No sequence takes more blocks than there are. -/
theorem Sound.ceilDiv_le (sound : cache.Sound) (found : cache.sequences.get? id = some sequence) :
    sequence.table.length ⌈/⌉ cache.pool.blockSize ≤ cache.pool.blockCount := by
  have member : sequence ∈ cache.sequences.values := Registry.mem_values_iff.mpr ⟨id, found⟩
  have one := le_sum_map (fun sequence : PagedSequence =>
    sequence.table.length ⌈/⌉ cache.pool.blockSize) member
  have all := sound.freeCount_add
  omega

/-- Without sequences every block is free. -/
theorem Sound.freeCount_eq (sound : cache.Sound) (none : cache.sequences.keys = []) :
    cache.pool.freeCount = cache.pool.blockCount := by
  have taken := sound.freeCount_add
  rw [Registry.sum_values, none] at taken
  exact taken

/-- Beside a single sequence every block is free that is not in its table. -/
theorem Sound.freeCount_add_of_single (sound : cache.Sound) (single : cache.sequences.keys = [id])
    (found : cache.sequences.get? id = some sequence) :
    cache.pool.freeCount + sequence.table.length ⌈/⌉ cache.pool.blockSize =
      cache.pool.blockCount := by
  have taken := sound.freeCount_add
  rw [Registry.sum_values, single, List.map_singleton, List.sum_cons, List.sum_nil, found] at taken
  exact taken

end ContinuousBatching.PagedCache
