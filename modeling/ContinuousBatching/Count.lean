/-
**Counts of 64 bits.**

Every length, position and total of the scheduler is a natural number below `Count.limit = 2 ^ 64`.
An operation whose exact result does not fit ends in a fault, so a value that was computed at all is
the exact one:

* `Count.fit_eq_ok_iff`: a number passes exactly if it is below the limit, and then unchanged;
* `Count.add_eq_ok_iff`: the same for sums.

Dividing positions into blocks needs a block size, and gives the quotient rounded up.
-/

import ContinuousBatching.Failure
import ContinuousBatching.Natural

namespace ContinuousBatching.Count

/-- The first number that does not fit. -/
def limit : Nat := 0x10000000000000000

/-- A number that has to fit. -/
def fit (n : Nat) : Checked Nat := if n < limit then .ok n else .error (.fault .overflow)

/-- The sum of two counts. -/
def add (a b : Nat) : Checked Nat := fit (a + b)

/-- The product of two counts. -/
def mul (a b : Nat) : Checked Nat := fit (a * b)

/-- The sum of a list of counts, added up from the first one on. -/
def sum (counts : List Nat) : Checked Nat := counts.foldlM add 0

/-- The number of blocks of `size` positions that `length` positions take: `length` divided by
`size`, rounded up. -/
def blocksFor (length size : Nat) : Checked Nat :=
  if size = 0 then .error (.fault .divisionByZero) else .ok ((length + size - 1) / size)

theorem fit_eq_ok_iff {n m : Nat} : fit n = .ok m ↔ n < limit ∧ m = n := by
  unfold fit
  split
  · rename_i fits
    simp [fits, eq_comm]
  · rename_i large
    simp [large]

theorem add_eq_ok_iff {a b n : Nat} : add a b = .ok n ↔ a + b < limit ∧ n = a + b :=
  fit_eq_ok_iff

end ContinuousBatching.Count
