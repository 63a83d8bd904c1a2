/-
**The blocks of a sequence.**

A sequence writes its positions one after the other into its blocks, in the order of its table;
only the last block may be partly empty. `BlockTable.needed` is the number of blocks that have to be
added before a number of further positions can be written.
-/

import ContinuousBatching.Count
import ContinuousBatching.Cache.BlockPool

namespace ContinuousBatching

/-- The size of a block when nothing else is said. -/
def defaultBlockSize : Nat := 16

/-- The blocks of a sequence and the number of positions written. -/
structure BlockTable where
  blocks : List BlockId
  blockSize : Nat
  length : Nat
  deriving DecidableEq, Repr

namespace BlockTable

/-- A table without blocks. -/
def ofBlockSize (blockSize : Nat) : BlockTable := ⟨[], blockSize, 0⟩

/-- The number of positions in all blocks. -/
def capacity (table : BlockTable) : Checked Nat := Count.mul table.blocks.length table.blockSize

/-- The number of blocks that `additional` positions need beyond the blocks at hand. -/
def needed (table : BlockTable) (additional : Nat) : Checked Nat := do
  let length ← Count.add table.length additional
  let blocks ← Count.blocksFor length table.blockSize
  return blocks - table.blocks.length

/-- Adds blocks at the end. -/
def append (table : BlockTable) (blocks : List BlockId) : BlockTable :=
  { table with blocks := table.blocks ++ blocks }

/-- Notes further positions as written. -/
def advance (table : BlockTable) (additional : Nat) : Checked BlockTable := do
  return { table with length := ← Count.add table.length additional }

/-- The table without its blocks. -/
def cleared (table : BlockTable) : BlockTable := { table with blocks := [], length := 0 }

end BlockTable

end ContinuousBatching
