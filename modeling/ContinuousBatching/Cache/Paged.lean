/-
**A cache of blocks.**

A `PagedCache` holds sequences, each with a table of blocks and the tokens written so far. Feeding a
sequence first takes the blocks that the new positions need, all or none, and then asks the model
for the next token, which depends on nothing but the tokens in the sequence's context.

`canFit`, `canGrow` and `canDecode` say beforehand whether the blocks will do.
-/

import ContinuousBatching.Registry
import ContinuousBatching.Cache.BlockTable
import ContinuousBatching.Request.Chunk
import ContinuousBatching.Request.Sample

namespace ContinuousBatching

/-- Chooses the next token from the tokens of a context. A generator is taken to be a function of
the context: the same context always gets the same continuation. A generator that counts its calls,
or remembers anything else between them, is not one of these. -/
abbrev NextToken := List TokenId → Sample

/-- A sequence in a cache of blocks. -/
structure PagedSequence where
  table : BlockTable
  /-- The tokens written so far. -/
  context : List TokenId
  deriving DecidableEq, Repr

/-- A cache of blocks and the model that writes into it. -/
structure PagedCache where
  name : String
  pool : BlockPool
  sequences : Registry SequenceId PagedSequence
  nextToken : NextToken

namespace PagedCache

/-- A cache without sequences. -/
def ofSize (name : String) (blockCount blockSize : Nat) (nextToken : NextToken) : PagedCache :=
  ⟨name, .ofSize blockCount blockSize, .empty, nextToken⟩

/-- A cache without sequences, if memory can hold its blocks. -/
def reserve (name : String) (blockCount blockSize : Nat) (nextToken : NextToken) :
    Checked PagedCache := do
  let pool ← BlockPool.reserve blockCount blockSize
  return ⟨name, pool, .empty, nextToken⟩

/-- The tokens written for a sequence. -/
def context? (cache : PagedCache) (id : SequenceId) : Option (List TokenId) :=
  (cache.sequences.get? id).map PagedSequence.context

/-- Runs an action on the blocks. -/
def onPool {α : Type} (action : Action BlockPool α) : Action PagedCache α :=
  action.on pool fun pool cache => { cache with pool := pool }

/-- Registers a sequence, without blocks. -/
def addSequence (id : SequenceId) : Action PagedCache Unit := do
  let cache ← get
  if cache.sequences.contains id then refuse (.sequenceExists id)
  else
    let sequence : PagedSequence := ⟨.ofBlockSize cache.pool.blockSize, []⟩
    set { cache with sequences := cache.sequences.insert id sequence }

/-- Removes a sequence and frees its blocks. -/
def removeSequence (id : SequenceId) : Action PagedCache Unit := do
  let cache ← get
  match cache.sequences.get? id with
  | none => refuse (.sequenceNotFound id)
  | some sequence =>
    set { cache with
      sequences := cache.sequences.erase id
      pool := (cache.pool.releaseMany sequence.table.blocks).2 }

/-- Feeds chunks to a sequence and chooses its next token. -/
def forward (id : SequenceId) (chunks : List Chunk) : Action PagedCache Sample := do
  match (← get).sequences.get? id with
  | none => refuse (.sequenceNotFound id)
  | some sequence =>
    let length ← totalLength chunks
    let blocks ← onPool (BlockPool.allocateMany (← sequence.table.needed length))
    let table ← (sequence.table.append blocks).advance length
    let fed : PagedSequence := ⟨table, sequence.context ++ tokenIds chunks⟩
    modify fun cache => { cache with sequences := cache.sequences.insert id fed }
    return (← get).nextToken fed.context

/-- The number of blocks that new sequences of these lengths take together. -/
def blocksForAll (blockSize : Nat) (lengths : List Nat) : Checked Nat := do
  Count.sum (← lengths.mapM fun length => Count.blocksFor length blockSize)

/-- Whether new sequences of these lengths fit together. -/
def canFit (cache : PagedCache) (lengths : List Nat) : Checked Bool := do
  return cache.pool.canAllocate (← blocksForAll cache.pool.blockSize lengths)

/-- Whether a sequence can be fed as many positions. -/
def canGrow (cache : PagedCache) (id : SequenceId) (additional : Nat) : Checked Bool :=
  match cache.sequences.get? id with
  | none => .ok false
  | some sequence => do return cache.pool.canAllocate (← sequence.table.needed additional)

/-- The number of blocks that sequences need for one position more each, on top of `blocks`; there
is none if a sequence is unknown. -/
def decodeNeed (cache : PagedCache) (blocks : Nat) : List SequenceId → Checked (Option Nat)
  | [] => .ok (some blocks)
  | id :: ids =>
    match cache.sequences.get? id with
    | none => .ok none
    | some sequence => do
      let more ← Count.add blocks (← sequence.table.needed 1)
      cache.decodeNeed more ids

/-- Whether all these sequences can be fed one position more. -/
def canDecode (cache : PagedCache) (ids : List SequenceId) : Checked Bool := do
  return (← cache.decodeNeed 0 ids).any cache.pool.canAllocate

end PagedCache

end ContinuousBatching
