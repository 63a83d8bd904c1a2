/-
**Powers of natural numbers.**

`powTwo` and `powTen` are the powers of the two bases in use.
-/

namespace ContinuousBatching

/-- Two to the power of `n`. -/
def powTwo (n : Nat) : Nat := Nat.pow 2 n

/-- Ten to the power of `n`. -/
def powTen (n : Nat) : Nat := Nat.pow 10 n

end ContinuousBatching
