/-
**Sequence ids.**

Ids are numbers that name sequences inside the replicas. An id is live from its allocation to its
recycling. A recycled id is handed out again before any id that was never used, the most recently
recycled one first, so the ids in use stay dense.
-/

import ContinuousBatching.Memory

namespace ContinuousBatching

/-- The ids of the sequences, at most `capacity` of them live. -/
structure SequenceIds where
  live : List SequenceId
  /-- Recycled ids, the most recently recycled first. -/
  free : List SequenceId
  /-- The smallest id that was never handed out. -/
  fresh : SequenceId
  capacity : Nat
  deriving DecidableEq, Repr

namespace SequenceIds

/-- No id is live. -/
def ofCapacity (capacity : Nat) : SequenceIds := ⟨[], [], 0, capacity⟩

/-- No id is live, and there is room for as many live ids as there may be. -/
def reserve (capacity : Nat) : Checked SequenceIds := do
  Memory.holdTable capacity
  return .ofCapacity capacity

/-- Whether an id is live. -/
def isLive (ids : SequenceIds) (id : SequenceId) : Bool := decide (id ∈ ids.live)

/-- The number of live ids. -/
def liveCount (ids : SequenceIds) : Nat := ids.live.length

/-- Hands out an id. -/
def allocate : Action SequenceIds SequenceId := do
  let ids ← get
  if ids.capacity ≤ ids.liveCount then refuse (.sequenceIdsExhausted ids.capacity)
  else
    match ids.free with
    | id :: free =>
      set { ids with live := id :: ids.live, free := free }
      pure id
    | [] =>
      set { ids with live := ids.fresh :: ids.live, fresh := ids.fresh + 1 }
      pure ids.fresh

/-- Takes an id back. -/
def recycle (id : SequenceId) : Action SequenceIds Unit := do
  let ids ← get
  if id ∈ ids.live then set { ids with live := ids.live.erase id, free := id :: ids.free }
  else refuse (.sequenceIdNotLive id)

end SequenceIds

end ContinuousBatching
