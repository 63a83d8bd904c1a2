/-
**A cache of blocks owns its blocks.**

In a sound cache the used blocks are exactly those of the tables of its sequences, none of them in
two tables, and a table has the blocks that its positions take (`PagedCache.Sound`). The results of
the three operations are written out as functions of the cache: a sequence is registered without
blocks (`PagedCache.registered`), removed together with its blocks (`PagedCache.without`), or fed
(`PagedCache.written`).

* `PagedCache.addSequence_meets`, `PagedCache.removeSequence_meets`, `PagedCache.forward_meets`: the
  operations lead to these results, or stop and leave the cache as it was;
* `PagedCache.Sound.registered`, `PagedCache.Sound.without`, `PagedCache.Sound.written`: the results
  are sound again.
-/

import ContinuousBatching.Proofs.Cache.Blocks
import ContinuousBatching.Proofs.Registry

namespace ContinuousBatching

/-- A sequence that was fed chunks, for which it took blocks. -/
def PagedSequence.fed (sequence : PagedSequence) (blocks : List BlockId) (chunks : List Chunk) :
    PagedSequence where
  table :=
    { sequence.table with
      blocks := sequence.table.blocks ++ blocks
      length := sequence.table.length + positions chunks }
  context := sequence.context ++ tokenIds chunks

/-- The number of blocks that a sequence lacks for being fed chunks. -/
def PagedSequence.lacks (sequence : PagedSequence) (chunks : List Chunk) : Nat :=
  sequence.table.shortfall (positions chunks)

namespace PagedCache

/-- The cache has never had a sequence. -/
def IsFresh (cache : PagedCache) : Prop :=
  cache = .ofSize cache.name cache.pool.blockCount cache.pool.blockSize cache.nextToken

/-- The blocks in the tables of the sequences. -/
def tableBlocks (cache : PagedCache) : List BlockId :=
  cache.sequences.values.flatMap fun sequence => sequence.table.blocks

/-- The used blocks are those of the tables, and a table has the blocks that its positions take. -/
structure Sound (cache : PagedCache) : Prop where
  pool : cache.pool.Sound
  used : cache.pool.used.Perm cache.tableBlocks
  sized : ∀ id sequence, cache.sequences.get? id = some sequence →
    sequence.table.blockSize = cache.pool.blockSize ∧
      sequence.table.blocks.length = sequence.table.length ⌈/⌉ cache.pool.blockSize

/-- The cache with a sequence more, which has no blocks. -/
def registered (cache : PagedCache) (id : SequenceId) : PagedCache :=
  { cache with
    sequences := cache.sequences.insert id ⟨.ofBlockSize cache.pool.blockSize, []⟩ }

/-- The cache with further sequences, which have no blocks yet. -/
def registeredAll (cache : PagedCache) (ids : List SequenceId) : PagedCache :=
  ids.foldl registered cache

/-- The cache without a sequence; its blocks are free. -/
def without (cache : PagedCache) (id : SequenceId) : PagedCache :=
  match cache.sequences.get? id with
  | none => cache
  | some sequence =>
    { cache with
      sequences := cache.sequences.erase id
      pool := (cache.pool.releaseMany sequence.table.blocks).2 }

/-- The cache without some sequences. -/
def withoutAll (cache : PagedCache) (ids : List SequenceId) : PagedCache := ids.foldl without cache

/-- The cache after chunks were fed to a sequence. -/
def written (cache : PagedCache) (id : SequenceId) (sequence : PagedSequence)
    (chunks : List Chunk) : PagedCache :=
  { cache with
    pool := cache.pool.taken (sequence.lacks chunks)
    sequences := cache.sequences.insert id
      (sequence.fed (cache.pool.free.take (sequence.lacks chunks)) chunks) }

variable {cache : PagedCache} {id other : SequenceId} {sequence : PagedSequence}
  {chunks : List Chunk}

/-! ### What a look-up finds -/

theorem get?_registered :
    (cache.registered id).sequences.get? other =
      if other = id then some ⟨.ofBlockSize cache.pool.blockSize, []⟩
      else cache.sequences.get? other :=
  Registry.get?_insert ..

/-- Registering sequences touches neither the blocks nor the other sequences. -/
theorem registeredAll_spec (ids : List SequenceId) (cache : PagedCache) (other : SequenceId) :
    (cache.registeredAll ids).pool = cache.pool ∧
      (cache.registeredAll ids).sequences.get? other =
        if other ∈ ids then some ⟨.ofBlockSize cache.pool.blockSize, []⟩
        else cache.sequences.get? other := by
  unfold registeredAll
  induction ids generalizing cache with
  | nil => simp
  | cons id rest ih =>
      obtain ⟨pool, found⟩ := ih (cache.registered id)
      rw [List.foldl_cons]
      refine ⟨pool, found.trans ?_⟩
      rw [get?_registered]
      by_cases here : other = id <;> by_cases later : other ∈ rest <;>
        simp [here, later, registered]

@[simp]
theorem nextToken_without : (cache.without id).nextToken = cache.nextToken := by
  unfold without
  split <;> rfl

@[simp]
theorem blockSize_without : (cache.without id).pool.blockSize = cache.pool.blockSize := by
  unfold without
  split
  · rfl
  · exact BlockPool.releaseMany_blockSize ..

@[simp]
theorem blockCount_without : (cache.without id).pool.blockCount = cache.pool.blockCount := by
  unfold without
  split
  · rfl
  · exact BlockPool.releaseMany_blockCount ..

theorem keys_without :
    (cache.without id).sequences.keys = cache.sequences.keys.filter fun other => other ≠ id := by
  unfold without
  split
  · rename_i absent
    refine (List.filter_eq_self.mpr fun other member => ?_).symm
    have differ : other ≠ id := fun same => Registry.get?_eq_none_iff.mp absent (same ▸ member)
    simpa using differ
  · exact Registry.keys_erase ..

theorem get?_without :
    (cache.without id).sequences.get? other =
      if other = id then none else cache.sequences.get? other := by
  unfold without
  split
  · rename_i absent
    split
    · rename_i same
      rw [same, absent]
    · rfl
  · exact Registry.get?_erase ..

@[simp]
theorem get?_withoutAll {ids : List SequenceId} :
    (cache.withoutAll ids).sequences.get? other =
      if other ∈ ids then none else cache.sequences.get? other := by
  unfold withoutAll
  induction ids generalizing cache with
  | nil => simp
  | cons id rest ih =>
      rw [List.foldl_cons, ih, get?_without]
      by_cases here : other = id <;> by_cases later : other ∈ rest <;> simp [here, later]

/-- The order of removal does not matter for the sequences that are left. -/
theorem get?_withoutAll_perm {first second : List SequenceId} (perm : first.Perm second)
    (id : SequenceId) :
    (cache.withoutAll first).sequences.get? id = (cache.withoutAll second).sequences.get? id := by
  rw [get?_withoutAll, get?_withoutAll]
  exact if_congr perm.mem_iff rfl rfl

@[simp]
theorem blockSize_withoutAll (ids : List SequenceId) :
    (cache.withoutAll ids).pool.blockSize = cache.pool.blockSize := by
  unfold withoutAll
  induction ids generalizing cache with
  | nil => rfl
  | cons id rest ih => rw [List.foldl_cons, ih, blockSize_without]

@[simp]
theorem blockCount_withoutAll (ids : List SequenceId) :
    (cache.withoutAll ids).pool.blockCount = cache.pool.blockCount := by
  unfold withoutAll
  induction ids generalizing cache with
  | nil => rfl
  | cons id rest ih => rw [List.foldl_cons, ih, blockCount_without]

theorem get?_written :
    (cache.written id sequence chunks).sequences.get? other =
      if other = id then
        some (sequence.fed (cache.pool.free.take (sequence.lacks chunks)) chunks)
      else cache.sequences.get? other :=
  Registry.get?_insert ..

/-! ### The operations -/

theorem addSequence_meets (cache : PagedCache) (id : SequenceId) :
    Meets (addSequence id) cache
      (fun _ next => cache.sequences.get? id = none ∧ next = cache.registered id)
      (fun stop next => stop = .refused (.sequenceExists id) ∧ next = cache ∧
        id ∈ cache.sequences.keys) := by
  unfold addSequence
  rw [meets_bind, meets_get]
  by_cases present : id ∈ cache.sequences.keys
  · rw [if_pos (Registry.contains_iff.mpr present)]
    exact ⟨rfl, rfl, present⟩
  · rw [if_neg (fun contains => present (Registry.contains_iff.mp contains))]
    exact ⟨Registry.get?_eq_none_iff.mpr present, rfl⟩

theorem removeSequence_meets (cache : PagedCache) (id : SequenceId) :
    Meets (removeSequence id) cache
      (fun _ next => id ∈ cache.sequences.keys ∧ next = cache.without id)
      (fun stop next => stop = .refused (.sequenceNotFound id) ∧ next = cache ∧
        cache.sequences.get? id = none) := by
  unfold removeSequence without
  rw [meets_bind, meets_get]
  cases found : cache.sequences.get? id with
  | none => exact ⟨rfl, rfl, rfl⟩
  | some sequence => exact ⟨Registry.mem_keys_iff.mpr ⟨sequence, found⟩, rfl⟩

/-- A sequence that is not registered cannot be fed. -/
theorem forward_of_absent (absent : cache.sequences.get? id = none) (chunks : List Chunk) :
    forward id chunks cache = .error (.refused (.sequenceNotFound id)) cache := by
  show (match cache.sequences.get? id with
    | none => (refuse (.sequenceNotFound id) : Action PagedCache Sample)
    | some sequence => _) cache = _
  rw [absent]
  rfl

/-- **Feeding a sequence** takes the blocks that it lacks, or changes nothing. -/
theorem forward_meets (found : cache.sequences.get? id = some sequence) (chunks : List Chunk) :
    Meets (forward id chunks) cache
      (fun sample next => sequence.lacks chunks ≤ cache.pool.freeCount ∧
        sample = cache.nextToken (sequence.context ++ tokenIds chunks) ∧
        next = cache.written id sequence chunks)
      (fun stop next =>
        (stop = .refused .outOfBlocks ∧ next = cache ∧
          cache.pool.freeCount < sequence.lacks chunks) ∨
        (stop = .fault .overflow ∧ Count.limit ≤ sequence.table.length + positions chunks) ∨
        (stop = .fault .divisionByZero ∧ sequence.table.blockSize = 0)) := by
  unfold forward
  rw [meets_bind, meets_get, found]
  simp only [meets_bind, meets_liftM]
  refine (totalLength_yields chunks).mono ?_ ?_
  · rintro _ ⟨rfl, -⟩
    refine (BlockTable.needed_yields _ _).mono ?_ (fun _ reason => Or.inr reason)
    rintro _ ⟨rfl, -⟩
    rw [onPool, meets_on]
    refine (BlockPool.allocateMany_meets _ _).mono ?_ ?_
    · rintro _ _ ⟨enough, rfl, rfl⟩
      refine (BlockTable.advance_yields _ _).mono ?_ (fun _ overflow => Or.inr (Or.inl overflow))
      rintro _ rfl
      exact ⟨enough, rfl, rfl⟩
    · rintro _ _ ⟨rfl, rfl, short⟩
      exact Or.inl ⟨rfl, rfl, short⟩
  · rintro _ ⟨rfl, large⟩
    exact Or.inr (Or.inl ⟨rfl, Nat.le_add_left_of_le large⟩)

/-! ### Soundness -/

theorem ofSize_sound (name : String) (blockCount blockSize : Nat) (nextToken : NextToken) :
    (ofSize name blockCount blockSize nextToken).Sound where
  pool := BlockPool.ofSize_sound blockCount blockSize
  used := List.Perm.refl _
  sized := fun _ _ found => by cases found

/-- The blocks in the tables are those of one sequence and those of the others. -/
theorem tableBlocks_perm (found : cache.sequences.get? id = some sequence) :
    cache.tableBlocks.Perm (sequence.table.blocks ++
      (cache.sequences.erase id).values.flatMap fun sequence => sequence.table.blocks) :=
  (Registry.values_perm found).flatMap_right _

theorem Sound.registered (sound : cache.Sound) (fresh : cache.sequences.get? id = none) :
    (cache.registered id).Sound where
  pool := sound.pool
  used := by
    have values := (Registry.values_insert_perm cache.sequences id
      ⟨.ofBlockSize cache.pool.blockSize, []⟩).flatMap_right
        fun sequence => sequence.table.blocks
    rw [Registry.erase_of_notMem (Registry.get?_eq_none_iff.mp fresh)] at values
    exact sound.used.trans values.symm
  sized := fun other sequence found => by
    rw [get?_registered] at found
    split at found
    · cases found
      exact ⟨rfl, (zero_ceilDiv _).symm⟩
    · exact sound.sized other sequence found

theorem Sound.without (sound : cache.Sound) : (cache.without id).Sound := by
  unfold PagedCache.without
  cases found : cache.sequences.get? id with
  | none => exact sound
  | some sequence =>
      have held := sound.used.trans (tableBlocks_perm found)
      refine ⟨sound.pool.released _, (BlockPool.releaseMany_perm sound.pool held).1, ?_⟩
      intro other sequence found
      rw [Registry.get?_erase] at found
      split at found
      · cases found
      · rw [BlockPool.releaseMany_blockSize]
        exact sound.sized other sequence found

theorem Sound.withoutAll {ids : List SequenceId} (sound : cache.Sound) :
    (cache.withoutAll ids).Sound := by
  unfold PagedCache.withoutAll
  induction ids generalizing cache with
  | nil => exact sound
  | cons id rest ih => exact ih sound.without

/-- The blocks of a removed sequence are free again. -/
theorem freeCount_without (sound : cache.Sound)
    (found : cache.sequences.get? id = some sequence) :
    (cache.without id).pool.freeCount =
      cache.pool.freeCount + sequence.table.blocks.length := by
  have held := sound.used.trans (tableBlocks_perm found)
  unfold PagedCache.without BlockPool.freeCount
  rw [found]
  show (cache.pool.releaseMany sequence.table.blocks).2.free.length = _
  rw [(BlockPool.releaseMany_perm sound.pool held).2, List.length_append]

/-- A sequence that was fed has the blocks that its positions take. -/
theorem Sound.length_blocks_fed (sound : cache.Sound)
    (found : cache.sequences.get? id = some sequence)
    (enough : sequence.lacks chunks ≤ cache.pool.freeCount) :
    (sequence.fed (cache.pool.free.take (sequence.lacks chunks)) chunks).table.blocks.length =
      (sequence.table.length + positions chunks) ⌈/⌉ cache.pool.blockSize := by
  obtain ⟨size, length⟩ := sound.sized id sequence found
  have grows := Count.ceilDiv_mono (Nat.le_add_right sequence.table.length (positions chunks))
    cache.pool.blockSize
  simp only [PagedSequence.fed, List.length_append, List.length_take]
  simp only [PagedSequence.lacks, BlockTable.shortfall, BlockPool.freeCount, size] at enough ⊢
  omega

open scoped List in
theorem Sound.written (sound : cache.Sound) (found : cache.sequences.get? id = some sequence)
    (enough : sequence.lacks chunks ≤ cache.pool.freeCount) :
    (cache.written id sequence chunks).Sound where
  pool := sound.pool.taken _
  used := by
    have values := (Registry.values_insert_perm cache.sequences id
      (sequence.fed (cache.pool.free.take (sequence.lacks chunks)) chunks)).flatMap_right
        fun sequence => sequence.table.blocks
    refine List.Perm.trans ?_ values.symm
    have held := sound.used.trans (tableBlocks_perm found)
    calc
      _ ~ cache.pool.free.take (sequence.lacks chunks) ++ cache.pool.used :=
        (List.reverse_perm _).append_right _
      _ ~ cache.pool.free.take (sequence.lacks chunks) ++ (sequence.table.blocks ++ _) :=
        held.append_left _
      _ = cache.pool.free.take (sequence.lacks chunks) ++ sequence.table.blocks ++ _ :=
        (List.append_assoc ..).symm
      _ ~ _ := List.perm_append_comm.append_right _
  sized := fun other fed there => by
    rw [get?_written] at there
    split at there
    · cases there
      exact ⟨(sound.sized id sequence found).1, sound.length_blocks_fed found enough⟩
    · exact sound.sized other fed there

theorem freeCount_written (enough : sequence.lacks chunks ≤ cache.pool.freeCount) :
    (cache.written id sequence chunks).pool.freeCount + sequence.lacks chunks =
      cache.pool.freeCount :=
  BlockPool.freeCount_taken enough

end PagedCache

end ContinuousBatching
