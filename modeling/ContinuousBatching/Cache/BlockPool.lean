/-
**The blocks of a cache.**

A cache is divided into `blockCount` blocks of `blockSize` positions. A block is either used or
free. Free blocks form a queue: the one that has been free for longest is handed out first.
-/

import ContinuousBatching.Memory

namespace ContinuousBatching

/-- The number of a block. -/
abbrev BlockId := Nat

/-- The blocks of a cache, used and free. -/
structure BlockPool where
  used : List BlockId
  /-- The free blocks, the next one to be handed out first. -/
  free : List BlockId
  blockSize : Nat
  blockCount : Nat
  deriving DecidableEq, Repr

namespace BlockPool

/-- All blocks are free. -/
def ofSize (blockCount blockSize : Nat) : BlockPool :=
  ⟨[], List.range blockCount, blockSize, blockCount⟩

/-- All blocks are free, and there is room for all of them to be used. -/
def reserve (blockCount blockSize : Nat) : Checked BlockPool := do
  Memory.holdTable blockCount
  return .ofSize blockCount blockSize

/-- The number of free blocks. -/
def freeCount (pool : BlockPool) : Nat := pool.free.length

/-- The number of used blocks. -/
def usedCount (pool : BlockPool) : Nat := pool.used.length

/-- Whether as many blocks are free. -/
def canAllocate (pool : BlockPool) (count : Nat) : Bool := decide (count ≤ pool.freeCount)

/-- Hands out a block. -/
def allocate : Action BlockPool BlockId := do
  let pool ← get
  match pool.free with
  | [] => refuse .outOfBlocks
  | block :: free =>
    set { pool with used := block :: pool.used, free := free }
    pure block

/-- Hands out as many blocks, one after the other. -/
def allocateTimes : Nat → Action BlockPool (List BlockId)
  | 0 => pure []
  | count + 1 => do
    let block ← allocate
    let blocks ← allocateTimes count
    pure (block :: blocks)

/-- Hands out as many blocks, or none if not as many are free. -/
def allocateMany (count : Nat) : Action BlockPool (List BlockId) := do
  if (← get).canAllocate count then allocateTimes count else refuse .outOfBlocks

/-- Takes a block back; tells whether it was used. -/
def release (pool : BlockPool) (block : BlockId) : Bool × BlockPool :=
  if block ∈ pool.used then
    (true, { pool with used := pool.used.erase block, free := pool.free ++ [block] })
  else (false, pool)

/-- Takes blocks back; tells how many of them were used. -/
def releaseMany : BlockPool → List BlockId → Nat × BlockPool
  | pool, [] => (0, pool)
  | pool, block :: blocks =>
    let (wasUsed, next) := pool.release block
    let (count, last) := next.releaseMany blocks
    (if wasUsed then count + 1 else count, last)

end BlockPool

end ContinuousBatching
