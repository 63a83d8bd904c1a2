/-
**Blocks are neither lost nor invented.**

The used and the free blocks of a pool are together exactly the blocks of the cache, none of them
twice (`BlockPool.Sound`). Blocks are handed out from the front of the queue of free ones, and come
back at its end:

* `BlockPool.allocateMany_meets`: as many blocks as asked for (`BlockPool.taken`), or none;
* `BlockPool.releaseMany_eq`: of any blocks that are given back, those that are used
  (`BlockPool.freeable`) are free afterwards, and `BlockPool.Sound.released`: no block is lost;
* `BlockTable.needed_yields`: the blocks that a table lacks (`BlockTable.shortfall`) are counted
  exactly, unless the number of positions leaves its 64 bits or blocks have no size.
-/

import ContinuousBatching.Proofs.Outcome
import ContinuousBatching.Proofs.Repetitions
import ContinuousBatching.Proofs.Sums

namespace ContinuousBatching

namespace BlockPool

/-- The used and the free blocks are those of the cache, none of them twice. -/
def Sound (pool : BlockPool) : Prop :=
  (pool.used ++ pool.free).Perm (List.range pool.blockCount)

/-- The pool after as many blocks were handed out. -/
def taken (pool : BlockPool) (count : Nat) : BlockPool :=
  { pool with
    used := (pool.free.take count).reverse ++ pool.used
    free := pool.free.drop count }

variable {pool : BlockPool} {block : BlockId} {blocks : List BlockId}

theorem ofSize_sound (blockCount blockSize : Nat) : (ofSize blockCount blockSize).Sound :=
  List.Perm.refl _

namespace Sound

theorem nodup (sound : pool.Sound) : (pool.used ++ pool.free).Nodup :=
  List.Perm.nodup_iff sound |>.mpr List.nodup_range

theorem nodup_used (sound : pool.Sound) : pool.used.Nodup := (List.nodup_append.mp sound.nodup).1

theorem nodup_free (sound : pool.Sound) : pool.free.Nodup :=
  (List.nodup_append.mp sound.nodup).2.1

theorem not_used (sound : pool.Sound) (free : block ∈ pool.free) : block ∉ pool.used :=
  fun used => (List.nodup_append.mp sound.nodup).2.2 block used block free rfl

end Sound

/-- Handing blocks out moves them from the free ones to the used ones. -/
theorem taken_perm (pool : BlockPool) (count : Nat) :
    ((pool.taken count).used ++ (pool.taken count).free).Perm (pool.used ++ pool.free) := by
  have swap : ((pool.free.take count).reverse ++ pool.used).Perm
      (pool.used ++ pool.free.take count) :=
    List.perm_append_comm.trans ((List.reverse_perm _).append_left pool.used)
  refine (swap.append_right _).trans ?_
  rw [List.append_assoc, taken, List.take_append_drop]

theorem Sound.taken (sound : pool.Sound) (count : Nat) : (pool.taken count).Sound :=
  (taken_perm pool count).trans sound

theorem freeCount_taken {count : Nat} (enough : count ≤ pool.freeCount) :
    (pool.taken count).freeCount + count = pool.freeCount := by
  simp only [freeCount, BlockPool.taken, List.length_drop] at enough ⊢
  omega

/-- **Handing out a block** is handing out blocks, one of them. -/
theorem allocate_meets (pool : BlockPool) :
    Meets allocate pool
      (fun block next => pool.free.head? = some block ∧ next = pool.taken 1)
      (fun stop next => stop = .refused .outOfBlocks ∧ next = pool ∧ pool.free = []) := by
  obtain ⟨used, free, blockSize, blockCount⟩ := pool
  cases free with
  | nil => exact ⟨rfl, rfl, rfl⟩
  | cons block free => exact ⟨rfl, rfl⟩

theorem allocateTimes_meets : ∀ (count : Nat) (pool : BlockPool), count ≤ pool.freeCount →
    Meets (allocateTimes count) pool
      (fun blocks next => blocks = pool.free.take count ∧ next = pool.taken count)
      (fun _ _ => False)
  | 0, pool, _ => ⟨rfl, rfl⟩
  | count + 1, pool, enough => by
      obtain ⟨used, free, blockSize, blockCount⟩ := pool
      cases free with
      | nil => exact absurd enough (by simp [freeCount])
      | cons block free =>
          have fewer : count ≤ free.length := by
            simpa [freeCount] using enough
          simp only [allocateTimes, allocate, meets_bind, meets_get, meets_set, meets_pure]
          refine (allocateTimes_meets count ⟨block :: used, free, blockSize, blockCount⟩
            fewer).mono ?_ (fun _ _ => id)
          rintro blocks next ⟨rfl, rfl⟩
          simp [BlockPool.taken]

/-- **Handing out blocks**, as many as asked for or none. -/
theorem allocateMany_meets (pool : BlockPool) (count : Nat) :
    Meets (allocateMany count) pool
      (fun blocks next => count ≤ pool.freeCount ∧ blocks = pool.free.take count ∧
        next = pool.taken count)
      (fun stop next => stop = .refused .outOfBlocks ∧ next = pool ∧ pool.freeCount < count) := by
  unfold allocateMany
  rw [meets_bind, meets_get]
  by_cases enough : count ≤ pool.freeCount
  · rw [if_pos (by simpa [canAllocate] using enough)]
    exact (allocateTimes_meets count pool enough).mono (fun _ _ both => ⟨enough, both⟩)
      (fun _ _ => False.elim)
  · rw [if_neg (by simpa [canAllocate] using enough)]
    exact ⟨rfl, rfl, Nat.lt_of_not_le enough⟩

/-! ### Giving blocks back -/

@[simp]
theorem releaseMany_blockSize (pool : BlockPool) (blocks : List BlockId) :
    (pool.releaseMany blocks).2.blockSize = pool.blockSize := by
  induction blocks generalizing pool with
  | nil => rfl
  | cons block rest ih =>
      rw [releaseMany, ih, release]
      split <;> rfl

@[simp]
theorem releaseMany_blockCount (pool : BlockPool) (blocks : List BlockId) :
    (pool.releaseMany blocks).2.blockCount = pool.blockCount := by
  induction blocks generalizing pool with
  | nil => rfl
  | cons block rest ih =>
      rw [releaseMany, ih, release]
      split <;> rfl

/-- The blocks of a list that are used, in the order in which they are first named. -/
def freeable (pool : BlockPool) (blocks : List BlockId) : List BlockId :=
  (blocks.filter fun block => block ∈ pool.used).eraseDups

theorem mem_freeable : block ∈ pool.freeable blocks ↔ block ∈ blocks ∧ block ∈ pool.used := by
  rw [freeable, List.mem_eraseDups, List.mem_filter, decide_eq_true_iff]

theorem nodup_freeable (pool : BlockPool) (blocks : List BlockId) :
    (pool.freeable blocks).Nodup :=
  nodup_eraseDups _

theorem freeable_of_notMem (idle : block ∉ pool.used) :
    pool.freeable (block :: blocks) = pool.freeable blocks := by
  rw [freeable, List.filter_cons_of_neg (by simpa using idle)]
  rfl

/-- The first of them is used no more when the others are given back. -/
theorem freeable_of_mem {next : BlockPool} (nodup : pool.used.Nodup) (used : block ∈ pool.used)
    (erased : next.used = pool.used.erase block) :
    pool.freeable (block :: blocks) = block :: next.freeable blocks := by
  have others : ((blocks.filter fun other => other ∈ pool.used).filter
      fun other => !other == block) = blocks.filter fun other => other ∈ next.used := by
    rw [List.filter_filter]
    refine List.filter_congr fun other _ => ?_
    by_cases same : other = block <;> simp [erased, nodup.mem_erase_iff, same]
  rw [freeable, List.filter_cons_of_pos (by simpa using used), List.eraseDups_cons, others]
  rfl

theorem release_of_mem (used : block ∈ pool.used) :
    pool.release block =
      (true, { pool with used := pool.used.erase block, free := pool.free ++ [block] }) := by
  rw [release, if_pos used]

theorem release_of_notMem (idle : block ∉ pool.used) : pool.release block = (false, pool) := by
  rw [release, if_neg idle]

/-- **Giving back any blocks.** Those that are used join the queue, each of them once. -/
theorem releaseMany_eq (nodup : pool.used.Nodup) (blocks : List BlockId) :
    pool.releaseMany blocks = ((pool.freeable blocks).length,
      { pool with
        used := pool.used.filter fun block => block ∉ blocks
        free := pool.free ++ pool.freeable blocks }) := by
  induction blocks generalizing pool with
  | nil =>
      have all : pool.used.filter (fun block => block ∉ ([] : List BlockId)) = pool.used :=
        List.filter_eq_self.mpr fun _ _ => by simp
      rw [all]
      simp [releaseMany, freeable]
  | cons block rest ih =>
      by_cases used : block ∈ pool.used
      · have fewer : (pool.used.erase block).filter (fun other => other ∉ rest) =
            pool.used.filter fun other => other ∉ block :: rest := by
          rw [nodup.erase_eq_filter, List.filter_filter]
          refine List.filter_congr fun other _ => ?_
          by_cases same : other = block <;> simp [same]
        have first : pool.freeable (block :: rest) =
            block :: freeable { pool with
              used := pool.used.erase block, free := pool.free ++ [block] } rest :=
          freeable_of_mem nodup used rfl
        rw [releaseMany, release_of_mem used]
        dsimp only
        rw [ih (nodup.erase block), fewer, first, List.append_assoc]
        rfl
      · have fewer : pool.used.filter (fun other => other ∉ rest) =
            pool.used.filter fun other => other ∉ block :: rest := by
          refine List.filter_congr fun other member => ?_
          have differ : other ≠ block := fun same => used (same ▸ member)
          simp [differ]
        rw [releaseMany, release_of_notMem used]
        dsimp only
        rw [ih nodup, fewer, freeable_of_notMem used]
        rfl

open scoped List in
/-- Blocks that are given back change sides. -/
theorem Sound.released (sound : pool.Sound) (blocks : List BlockId) :
    (pool.releaseMany blocks).2.Sound := by
  have back : pool.freeable blocks ~ pool.used.filter fun block => !decide (block ∉ blocks) := by
    refine (List.perm_ext_iff_of_nodup (nodup_freeable pool blocks)
      (sound.nodup_used.filter _)).mpr fun block => ?_
    rw [mem_freeable, List.mem_filter, and_comm]
    simp
  unfold Sound
  rw [releaseMany_eq sound.nodup_used]
  refine List.Perm.trans ?_ sound
  calc
    _ ~ (pool.used.filter fun block => block ∉ blocks) ++ (pool.freeable blocks ++ pool.free) :=
      List.perm_append_comm.append_left _
    _ = (pool.used.filter fun block => block ∉ blocks) ++ pool.freeable blocks ++ pool.free :=
      (List.append_assoc ..).symm
    _ ~ pool.used ++ pool.free :=
      ((back.append_left _).trans (List.filter_append_perm _ pool.used)).append_right _

/-- **Giving back blocks that are used**: they leave the used blocks and join the free ones. -/
theorem releaseMany_perm {rest : List BlockId} (sound : pool.Sound)
    (held : pool.used.Perm (blocks ++ rest)) :
    (pool.releaseMany blocks).2.used.Perm rest ∧
      (pool.releaseMany blocks).2.free = pool.free ++ blocks := by
  obtain ⟨nodup, _, apart⟩ := List.nodup_append.mp (held.nodup_iff.mp sound.nodup_used)
  have used : (blocks.filter fun block => block ∈ pool.used) = blocks :=
    List.filter_eq_self.mpr fun block member =>
      decide_eq_true (held.mem_iff.mpr (List.mem_append_left _ member))
  have left : (pool.used.filter fun block => block ∉ blocks).Perm rest := by
    refine (held.filter _).trans ?_
    have gone : (blocks.filter fun block => block ∉ blocks) = [] :=
      List.filter_eq_nil_iff.mpr fun block member => by simpa using member
    have kept : (rest.filter fun block => block ∉ blocks) = rest :=
      List.filter_eq_self.mpr fun block member =>
        decide_eq_true fun both => apart block both block member rfl
    rw [List.filter_append, gone, kept, List.nil_append]
  rw [releaseMany_eq sound.nodup_used, freeable, used, eraseDups_of_nodup nodup]
  exact ⟨left, rfl⟩

end BlockPool

/-! ### Tables -/

namespace BlockTable

/-- The number of blocks that a table lacks for further positions. -/
def shortfall (table : BlockTable) (additional : Nat) : Nat :=
  (table.length + additional) ⌈/⌉ table.blockSize - table.blocks.length

theorem needed_yields (table : BlockTable) (additional : Nat) :
    Yields (table.needed additional)
      (fun count => count = table.shortfall additional ∧ table.blockSize ≠ 0)
      (fun stop => (stop = .fault .overflow ∧ Count.limit ≤ table.length + additional) ∨
        (stop = .fault .divisionByZero ∧ table.blockSize = 0)) := by
  unfold needed
  rw [yields_bind]
  refine (Count.add_yields _ _).mono ?_ (fun _ overflow => Or.inl overflow)
  rintro _ ⟨rfl, -⟩
  rw [yields_bind, Count.blocksFor]
  by_cases sized : table.blockSize = 0
  · rw [if_pos sized]
    exact Or.inr ⟨rfl, sized⟩
  · rw [if_neg sized]
    exact ⟨rfl, sized⟩

theorem advance_yields (table : BlockTable) (additional : Nat) :
    Yields (table.advance additional)
      (fun next => next = { table with length := table.length + additional })
      (fun stop => stop = .fault .overflow ∧ Count.limit ≤ table.length + additional) := by
  unfold advance
  rw [yields_bind]
  refine (Count.add_yields _ _).mono ?_ (fun _ => id)
  rintro _ ⟨rfl, -⟩
  rfl

end BlockTable

end ContinuousBatching
