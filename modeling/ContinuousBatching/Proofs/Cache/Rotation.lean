/-
**In which order blocks go round.**

Free blocks form a queue. Whatever is asked for comes from its front, and whatever is given back
joins it at the end, if it was used: a block that is free, that does not exist, or that was named
before in the same list, is passed over. Beside the pool a history keeps a `Log` of the blocks in
the order in which they became free, and of those that were handed out. The first list begins with
all of the second one, and the rest of it is the queue:

* `Logged`: the pool is sound, and the queue is what the log says;
* `Logged.run_meets`: one operation, whether it is carried out or refused;
* `BlockPool.rotates_after`: **any operations**.
-/

import ContinuousBatching.Proofs.Cache.Blocks

namespace ContinuousBatching.BlockPool

variable {pool : BlockPool} {block : BlockId} {blocks : List BlockId}

/-! ### What every operation keeps -/

/-- What can be asked of a pool. -/
inductive Operation where
  | allocate
  | allocateMany (count : Nat)
  | release (block : BlockId)
  | releaseMany (blocks : List BlockId)
  deriving DecidableEq, Repr

/-- What a pool answers: the blocks that it hands out, or how many of those that it was given were
used. -/
inductive Reply where
  | handed (blocks : List BlockId)
  | released (count : Nat)
  deriving DecidableEq, Repr

namespace Operation

/-- Carries an operation out. -/
def run : Operation → Action BlockPool Reply
  | .allocate => (fun block => .handed [block]) <$> BlockPool.allocate
  | .allocateMany count => .handed <$> BlockPool.allocateMany count
  | .release block => do
    let (wasUsed, next) := (← get).release block
    set next
    return .released (if wasUsed then 1 else 0)
  | .releaseMany blocks => do
    let (count, next) := (← get).releaseMany blocks
    set next
    return .released count

/-- The blocks that an operation gives back. -/
def offered : Operation → List BlockId
  | .allocate => []
  | .allocateMany _ => []
  | .release block => [block]
  | .releaseMany blocks => blocks

end Operation

/-- The blocks that a reply hands out. -/
def Reply.given : Reply → List BlockId
  | .handed blocks => blocks
  | .released _ => []

/-- The blocks in the order in which they became free, and in the order in which they were handed
out, the first one first. -/
structure Log where
  freed : List BlockId
  handed : List BlockId
  deriving DecidableEq, Repr

namespace Log

/-- At first all blocks are free. -/
def ofCount (blockCount : Nat) : Log := ⟨List.range blockCount, []⟩

/-- The log after an operation that was carried out. -/
def note (pool : BlockPool) (operation : Operation) (reply : Reply) (log : Log) : Log where
  freed := log.freed ++ pool.freeable operation.offered
  handed := log.handed ++ reply.given

end Log

/-- The pool is sound, and the blocks that became free and were not handed out since queue up. -/
structure Logged (blockCount : Nat) (pool : BlockPool) (log : Log) : Prop where
  sound : pool.Sound
  count : pool.blockCount = blockCount
  queue : log.freed = log.handed ++ pool.free

variable {blockCount : Nat} {log : Log}

theorem logged_ofSize (blockCount blockSize : Nat) :
    (ofSize blockCount blockSize).Logged blockCount (.ofCount blockCount) :=
  ⟨ofSize_sound blockCount blockSize, rfl, rfl⟩

namespace Logged

/-- Blocks that are handed out come from the front of the queue. -/
theorem taken (logged : pool.Logged blockCount log) (count : Nat) :
    (pool.taken count).Logged blockCount
      { log with handed := log.handed ++ pool.free.take count } := by
  refine ⟨logged.sound.taken count, logged.count, ?_⟩
  show log.freed = log.handed ++ pool.free.take count ++ pool.free.drop count
  rw [List.append_assoc, List.take_append_drop, logged.queue]

/-- Blocks that are given back join the queue at its end. -/
theorem released (logged : pool.Logged blockCount log) (blocks : List BlockId) :
    (pool.releaseMany blocks).2.Logged blockCount
      { log with freed := log.freed ++ pool.freeable blocks } := by
  refine ⟨logged.sound.released blocks, (releaseMany_blockCount pool blocks).trans logged.count, ?_⟩
  rw [releaseMany_eq logged.sound.nodup_used, logged.queue]
  exact List.append_assoc ..

/-- **One operation.** Only a request for blocks is refused, and that changes nothing. -/
theorem run_meets (logged : pool.Logged blockCount log) (operation : Operation) :
    Meets operation.run pool
      (fun reply next => next.Logged blockCount (Log.note pool operation reply log))
      (fun stop next => (∃ cause, stop = .refused cause) ∧ next.Logged blockCount log) := by
  have nothing : pool.freeable [] = [] := rfl
  unfold Operation.run Log.note
  cases operation with
  | allocate =>
      rw [meets_map]
      refine (BlockPool.allocate_meets pool).mono ?_ ?_
      · rintro block _ ⟨first, rfl⟩
        have front : pool.free.take 1 = [block] := by
          rw [List.take_one, first, Option.toList_some]
        rw [Operation.offered, nothing, List.append_nil]
        exact front ▸ logged.taken 1
      · rintro _ _ ⟨rfl, rfl, -⟩
        exact ⟨⟨_, rfl⟩, logged⟩
  | allocateMany count =>
      rw [meets_map]
      refine (allocateMany_meets pool count).mono ?_ ?_
      · rintro _ _ ⟨-, rfl, rfl⟩
        rw [Operation.offered, nothing, List.append_nil]
        exact logged.taken count
      · rintro _ _ ⟨rfl, rfl, -⟩
        exact ⟨⟨_, rfl⟩, logged⟩
  | release block =>
      have one : (pool.release block).2 = (pool.releaseMany [block]).2 := rfl
      simp only [meets_bind, meets_get, meets_set, meets_pure, Reply.given, List.append_nil]
      rw [one]
      exact logged.released [block]
  | releaseMany blocks =>
      simp only [meets_bind, meets_get, meets_set, meets_pure, Reply.given, List.append_nil]
      exact logged.released blocks

end Logged

/-! ### Any operations -/

/-- What holds of a pool at any time, with the log of what has happened. -/
structure Rotates (blockCount : Nat) (pool : BlockPool) (log : Log) : Prop where
  nodup_used : pool.used.Nodup
  nodup_free : pool.free.Nodup
  apart : ∀ block ∈ pool.free, block ∉ pool.used
  cover : ∀ block, block ∈ pool.used ∨ block ∈ pool.free ↔ block < blockCount
  /-- The blocks that are free are those that became free last, and they are next in turn. -/
  queue : log.freed = log.handed ++ pool.free
  /-- A block is handed out exactly if one is free. -/
  allocates : Meets allocate pool
    (fun block next => pool.free = block :: next.free ∧ block ∉ pool.used ∧
      next.used = block :: pool.used)
    (fun stop next => pool.free = [] ∧ stop = .refused .outOfBlocks ∧ next = pool)
  /-- Blocks are handed out exactly if as many are free. -/
  allocatesMany : ∀ count, Meets (allocateMany count) pool
    (fun blocks next => count ≤ pool.free.length ∧ blocks.length = count ∧ blocks.Nodup ∧
      (∀ block ∈ blocks, block ∉ pool.used) ∧ pool.free = blocks ++ next.free ∧
      ∀ block, block ∈ next.used ↔ block ∈ blocks ∨ block ∈ pool.used)
    (fun stop next => pool.free.length < count ∧ stop = .refused .outOfBlocks ∧ next = pool)
  /-- A block is freed exactly if it is used. -/
  releases : ∀ block,
    pool.release block = (decide (block ∈ pool.used), (pool.releaseMany [block]).2)
  /-- The blocks of a list that are used are counted and freed, each of them once. -/
  releasesMany : ∀ blocks, (pool.releaseMany blocks).1 = (pool.freeable blocks).length ∧
    (pool.releaseMany blocks).2.free = pool.free ++ pool.freeable blocks ∧
    ∀ block, block ∈ (pool.releaseMany blocks).2.used ↔ block ∈ pool.used ∧ block ∉ blocks

namespace Sound

theorem allocateMany_grants (sound : pool.Sound) (count : Nat) :
    Meets (allocateMany count) pool
      (fun blocks next => count ≤ pool.free.length ∧ blocks.length = count ∧ blocks.Nodup ∧
        (∀ block ∈ blocks, block ∉ pool.used) ∧ pool.free = blocks ++ next.free ∧
        ∀ block, block ∈ next.used ↔ block ∈ blocks ∨ block ∈ pool.used)
      (fun stop next => pool.free.length < count ∧ stop = .refused .outOfBlocks ∧ next = pool) := by
  refine (allocateMany_meets pool count).mono ?_ ?_
  · rintro _ _ ⟨enough, rfl, rfl⟩
    refine ⟨enough, List.length_take_of_le enough, sound.nodup_free.sublist (List.take_sublist ..),
      fun block member => sound.not_used (List.mem_of_mem_take member),
      (List.take_append_drop ..).symm, fun block => ?_⟩
    show block ∈ (pool.free.take count).reverse ++ pool.used ↔ _
    rw [List.mem_append, List.mem_reverse]
  · rintro _ _ ⟨refused, same, short⟩
    exact ⟨short, refused, same⟩

theorem allocate_grants (sound : pool.Sound) :
    Meets allocate pool
      (fun block next => pool.free = block :: next.free ∧ block ∉ pool.used ∧
        next.used = block :: pool.used)
      (fun stop next => pool.free = [] ∧ stop = .refused .outOfBlocks ∧ next = pool) := by
  refine (allocate_meets pool).mono ?_ ?_
  · rintro block _ ⟨first, rfl⟩
    obtain ⟨rest, queue⟩ := List.head?_eq_some_iff.mp first
    have free : block ∈ pool.free := queue ▸ List.mem_cons_self
    simp only [BlockPool.taken, queue]
    exact ⟨rfl, sound.not_used free, rfl⟩
  · rintro _ _ ⟨refused, same, none⟩
    exact ⟨none, refused, same⟩

end Sound

theorem Logged.rotates (logged : pool.Logged blockCount log) : pool.Rotates blockCount log where
  nodup_used := logged.sound.nodup_used
  nodup_free := logged.sound.nodup_free
  apart := fun _ => logged.sound.not_used
  cover := fun block => by
    have cover := logged.sound
    rw [Sound, logged.count] at cover
    rw [← List.mem_append, cover.mem_iff, List.mem_range]
  queue := logged.queue
  allocates := logged.sound.allocate_grants
  allocatesMany := logged.sound.allocateMany_grants
  releases := fun block => by
    by_cases used : block ∈ pool.used
    · rw [releaseMany, release_of_mem used, decide_eq_true used]
      rfl
    · rw [releaseMany, release_of_notMem used, decide_eq_false used]
      rfl
  releasesMany := fun blocks => by
    rw [releaseMany_eq logged.sound.nodup_used]
    refine ⟨rfl, rfl, fun block => ?_⟩
    rw [List.mem_filter, decide_eq_true_iff]

/-- **Blocks go round.** Whatever is asked for and given back, nothing faults. No block is listed
twice, none is both used and free, and together they are those of the cache. Blocks are granted
exactly if as many are free, and none of those that are handed out was used; a refusal changes
nothing. Of the blocks that are given back those that are used are counted and freed, each once.
And blocks are handed out in the order in which they became free, the smallest one first at the
start. -/
theorem rotates_after (blockCount blockSize : Nat) (operations : List Operation) :
    ∃ pool log, logged Operation.run Log.note (ofSize blockCount blockSize) (.ofCount blockCount)
      operations = some (pool, log) ∧ pool.Rotates blockCount log := by
  have step : ∀ operation pool log, Logged blockCount pool log →
      Meets (Operation.run operation) pool
        (fun reply next => next.Logged blockCount (Log.note pool operation reply log))
        (fun stop next => (∃ cause, stop = .refused cause) ∧ next.Logged blockCount log) :=
    fun operation _ _ kept => kept.run_meets operation
  obtain ⟨pool, log, ran, kept⟩ := exists_logged step operations _ _
    (logged_ofSize blockCount blockSize)
  exact ⟨pool, log, ran, kept.rotates⟩

/-- Of three blocks two are handed out and given back, with a repetition, a free block and one that
does not exist among them; then none is lost, and the next one is the one that was not used yet. -/
example : (logged Operation.run Log.note (ofSize 3 16) (.ofCount 3)
    [.allocateMany 2, .allocateMany 2, .releaseMany [1, 2, 1, 7, 0], .release 1]).map
      (fun ended => (ended.1.free, ended.2.freed, ended.2.handed)) =
    some ([2, 1, 0], [0, 1, 2, 1, 0], [0, 1]) := by decide

end ContinuousBatching.BlockPool
