/-
**Replicas of the model.**

A `Replica` is a copy of the model with a cache of its own. The scheduler registers a sequence with
every replica, feeds it chunks and gets a token back. Besides the cache of blocks there is an
`OpenCache`, which takes any number of sequences and promises whatever it is asked, save that it may
put a limit to the positions of a sequence.
-/

import ContinuousBatching.Cache.Paged

namespace ContinuousBatching

/-- A sequence in a cache without blocks. -/
structure OpenSequence where
  /-- The tokens written so far. -/
  context : List TokenId
  /-- The number of positions fed, counted if there is a limit. -/
  length : Nat
  deriving DecidableEq, Repr

/-- A cache without blocks. -/
structure OpenCache where
  name : String
  /-- The largest number of positions that a sequence is promised. -/
  limit : Option Nat
  sequences : Registry SequenceId OpenSequence
  nextToken : NextToken

namespace OpenCache

/-- A cache without sequences. -/
def ofLimit (name : String) (limit : Option Nat) (nextToken : NextToken) : OpenCache :=
  ⟨name, limit, .empty, nextToken⟩

/-- Registers a sequence. -/
def addSequence (id : SequenceId) : Action OpenCache Unit := do
  let cache ← get
  if cache.sequences.contains id then refuse (.sequenceExists id)
  else set { cache with sequences := cache.sequences.insert id ⟨[], 0⟩ }

/-- Removes a sequence. -/
def removeSequence (id : SequenceId) : Action OpenCache Unit := do
  let cache ← get
  if cache.sequences.contains id then set { cache with sequences := cache.sequences.erase id }
  else refuse (.sequenceNotFound id)

/-- Feeds chunks to a sequence and chooses its next token. -/
def forward (id : SequenceId) (chunks : List Chunk) : Action OpenCache Sample := do
  let cache ← get
  match cache.sequences.get? id with
  | none => refuse (.sequenceNotFound id)
  | some sequence =>
    let length ←
      if cache.limit.isSome then Count.add sequence.length (← totalLength chunks)
      else pure sequence.length
    let fed : OpenSequence := ⟨sequence.context ++ tokenIds chunks, length⟩
    set { cache with sequences := cache.sequences.insert id fed }
    return cache.nextToken fed.context

/-- Whether a sequence is promised as many positions more. -/
def canGrow (cache : OpenCache) (id : SequenceId) (additional : Nat) : Checked Bool :=
  match cache.limit with
  | none => .ok true
  | some limit =>
    match cache.sequences.get? id with
    | none => .ok false
    | some sequence => do return decide ((← Count.add sequence.length additional) ≤ limit)

end OpenCache

/-- Whether a checked test holds of all elements; the first one that fails decides. -/
def allChecked {α : Type} (test : α → Checked Bool) : List α → Checked Bool
  | [] => .ok true
  | a :: rest => do if ← test a then allChecked test rest else return false

/-- A copy of the model with its cache. -/
inductive Replica where
  | paged (cache : PagedCache)
  | unpaged (cache : OpenCache)

namespace Replica

/-- The name of a replica. -/
def name : Replica → String
  | .paged cache => cache.name
  | .unpaged cache => cache.name

/-- The number of sequences registered. -/
def sequenceCount : Replica → Nat
  | .paged cache => cache.sequences.size
  | .unpaged cache => cache.sequences.size

/-- The number of positions that a sequence can take at most, or zero if nothing limits it. -/
def room : Replica → Nat
  | .paged cache => cache.pool.blockCount * cache.pool.blockSize
  | .unpaged cache => cache.limit.getD 0

/-- Runs one of two actions, as the cache has blocks or not. -/
def onCache {α : Type} (paged : Action PagedCache α) (unpaged : Action OpenCache α) :
    Action Replica α
  | .paged cache =>
    match paged cache with
    | .ok value cache => .ok value (.paged cache)
    | .error stop cache => .error stop (.paged cache)
  | .unpaged cache =>
    match unpaged cache with
    | .ok value cache => .ok value (.unpaged cache)
    | .error stop cache => .error stop (.unpaged cache)

/-- Registers a sequence. -/
def addSequence (id : SequenceId) : Action Replica Unit :=
  onCache (PagedCache.addSequence id) (OpenCache.addSequence id)

/-- Removes a sequence and everything it holds. -/
def removeSequence (id : SequenceId) : Action Replica Unit :=
  onCache (PagedCache.removeSequence id) (OpenCache.removeSequence id)

/-- Feeds chunks to a sequence and chooses its next token. -/
def forward (id : SequenceId) (chunks : List Chunk) : Action Replica Sample :=
  onCache (PagedCache.forward id chunks) (OpenCache.forward id chunks)

/-- Whether new sequences of these lengths fit together. -/
def canFit (replica : Replica) (lengths : List Nat) : Checked Bool :=
  match replica with
  | .paged cache => cache.canFit lengths
  | .unpaged _ => .ok true

/-- Whether a sequence can be fed as many positions. -/
def canGrow (replica : Replica) (id : SequenceId) (additional : Nat) : Checked Bool :=
  match replica with
  | .paged cache => cache.canGrow id additional
  | .unpaged cache => cache.canGrow id additional

/-- Whether all these sequences can be fed one position more. -/
def canDecode (replica : Replica) (ids : List SequenceId) : Checked Bool :=
  match replica with
  | .paged cache => cache.canDecode ids
  | .unpaged cache => allChecked (fun id => cache.canGrow id 1) ids

end Replica

/-- Runs an action on every replica in turn; a refusal leaves the replicas behind it alone. -/
def onEvery (action : Action Replica Unit) : Action (List Replica) Unit
  | [] => .ok () []
  | replica :: rest =>
    match action replica with
    | .error stop replica => .error stop (replica :: rest)
    | .ok () replica =>
      match onEvery action rest with
      | .ok () rest => .ok () (replica :: rest)
      | .error stop rest => .error stop (replica :: rest)

/-- Runs an action on the replica at a place. -/
def onReplica {α : Type} (place : Nat) (action : Action Replica α) : Action (List Replica) α :=
  fun replicas =>
    match replicas[place]? with
    | none => .error (.fault .outOfRange) replicas
    | some replica =>
      match action replica with
      | .ok value replica => .ok value (replicas.set place replica)
      | .error stop replica => .error stop (replicas.set place replica)

end ContinuousBatching
