/-
**What memory can hold.**

Room for a list or a table is taken when it is made, and a piece of memory has fewer bytes than
`Memory.limit = 2 ^ 63`. Asking for more is a fault:

* `Memory.holdList_eq_ok_iff`: a list fits if its elements together have fewer bytes than that;
* `Memory.holdTable_eq_ok_iff`: a table of numbers fits if it has at most `Memory.tableLimit` of
  them.
-/

import ContinuousBatching.Failure

namespace ContinuousBatching.Memory

/-- The first number of bytes that a piece of memory cannot have. -/
def limit : Nat := 0x8000000000000000

/-- Takes room for a list of `count` elements of `size` bytes each. -/
def holdList (count size : Nat) : Checked Unit :=
  if count * size < limit then .ok () else .error (.fault .outOfMemory)

/-- The largest number of entries of a table of numbers. The number of slots is a power of two, at
most seven eighths of them are filled, and a slot takes nine bytes, so there are at most `2 ^ 59`
slots. -/
def tableLimit : Nat := 0x700000000000000

/-- Takes room for a table of `count` numbers. -/
def holdTable (count : Nat) : Checked Unit :=
  if count ≤ tableLimit then .ok () else .error (.fault .outOfMemory)

theorem holdList_eq_ok_iff {count size : Nat} :
    holdList count size = .ok () ↔ count * size < limit := by
  unfold holdList
  split
  · rename_i fits
    simp [fits]
  · rename_i large
    simp [large]

theorem holdTable_eq_ok_iff {count : Nat} : holdTable count = .ok () ↔ count ≤ tableLimit := by
  unfold holdTable
  split
  · rename_i fits
    simp [fits]
  · rename_i large
    simp [large]

end ContinuousBatching.Memory
