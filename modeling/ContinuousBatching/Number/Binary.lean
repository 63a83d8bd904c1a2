/-
**Binary floating point as bit patterns.**

A `Layout` fixes how many bits hold the fraction and the exponent; a pattern of bits is decoded into
a sign, a whole mantissa and a power of two, and a quotient of natural numbers is rounded to the
nearest pattern, a tie going to the even one. All of it is exact arithmetic on natural numbers.
`Single` and `Double` are the two layouts in use, and an operation on them is the exact result,
rounded once.
-/

import ContinuousBatching.Natural

namespace ContinuousBatching.Number

/-- How a pattern of bits is divided: one sign bit, then the exponent, then the fraction. -/
structure Layout where
  fractionBits : Nat
  exponentBits : Nat
  deriving DecidableEq, Repr

/-- The layout of 32 bits. -/
def Layout.single : Layout := ⟨23, 8⟩

/-- The layout of 64 bits. -/
def Layout.double : Layout := ⟨52, 11⟩

/-- The number that a pattern of bits stands for: `mantissa * 2 ^ exponent` with a sign, or one of
the two kinds that are not finite. -/
inductive Decoded where
  | nan
  | infinite (negative : Bool)
  | finite (negative : Bool) (mantissa : Nat) (exponent : Int)
  deriving DecidableEq, Repr

namespace Layout

/-- The exponent of the last place of the smallest numbers. -/
def minExponent (layout : Layout) : Int :=
  2 - (powTwo (layout.exponentBits - 1) : Int) - layout.fractionBits

/-- The pattern of positive infinity. -/
def infinity (layout : Layout) : Nat :=
  (powTwo layout.exponentBits - 1) * powTwo layout.fractionBits

/-- The pattern that has only the sign bit set. -/
def signBit (layout : Layout) : Nat := powTwo (layout.exponentBits + layout.fractionBits)

/-- A pattern with a sign. -/
def withSign (layout : Layout) (negative : Bool) (magnitude : Nat) : Nat :=
  if negative then layout.signBit + magnitude else magnitude

/-- The number that a pattern stands for. -/
def decode (layout : Layout) (bits : Nat) : Decoded :=
  let negative := bits / layout.signBit % 2 = 1
  let fraction := bits % powTwo layout.fractionBits
  let exponent := bits / powTwo layout.fractionBits % powTwo layout.exponentBits
  if exponent = powTwo layout.exponentBits - 1 then
    if fraction = 0 then .infinite negative else .nan
  else if exponent = 0 then
    .finite negative fraction layout.minExponent
  else
    .finite negative (powTwo layout.fractionBits + fraction) (layout.minExponent + (exponent - 1))

/-- `num / den` as a quotient of whole numbers, after a division by `2 ^ exponent`. -/
def scaled (num den : Nat) (exponent : Int) : Nat × Nat :=
  if exponent < 0 then (num * powTwo exponent.natAbs, den) else (num, den * powTwo exponent.natAbs)

/-- The nearest whole number to `num / den`; a tie goes to the even one. -/
def nearest (num den : Nat) : Nat :=
  let quotient := num / den
  let twice := 2 * (num % den)
  if twice < den ∨ (twice = den ∧ quotient % 2 = 0) then quotient else quotient + 1

/-- The exponent of the last place that a positive `num / den` is rounded to. -/
def lastPlace (layout : Layout) (num den : Nat) : Int :=
  let guess : Int := (num.log2 : Int) - den.log2
  let leading := scaled num den guess
  let magnitude := if leading.1 < leading.2 then guess - 1 else guess
  max (magnitude - layout.fractionBits) layout.minExponent

/-- The pattern nearest to `num / den`, infinity if that is out of range. -/
def round (layout : Layout) (negative : Bool) (num den : Nat) : Nat :=
  if num = 0 then layout.withSign negative 0
  else
    let place := layout.lastPlace num den
    let quotient := scaled num den place
    let binade := (place - layout.minExponent).toNat
    let magnitude := binade * powTwo layout.fractionBits + nearest quotient.1 quotient.2
    layout.withSign negative (min magnitude layout.infinity)

/-- The pattern nearest to `mantissa * 2 ^ exponent`. -/
def roundScaled (layout : Layout) (negative : Bool) (mantissa : Nat) (exponent : Int) : Nat :=
  let quotient := scaled mantissa 1 (-exponent)
  layout.round negative quotient.1 quotient.2

/-- A pattern of a number that is none. -/
def quietNan (layout : Layout) : Nat := layout.infinity + powTwo (layout.fractionBits - 1)

end Layout

/-- A floating-point number of 32 bits. -/
structure Single where
  bits : UInt32
  deriving DecidableEq, Repr

/-- A floating-point number of 64 bits. -/
structure Double where
  bits : UInt64
  deriving DecidableEq, Repr

namespace Double

/-- The pattern of a natural number below `2 ^ 64`. -/
def ofBits (bits : Nat) : Double := ⟨UInt64.ofNat bits⟩

/-- The number that the pattern stands for. -/
def decode (x : Double) : Decoded := Layout.double.decode x.bits.toNat

/-- Positive zero. -/
def zero : Double := ⟨0⟩

instance : Inhabited Double := ⟨zero⟩

/-- The nearest number to a quotient. -/
def ofQuotient (negative : Bool) (num den : Nat) : Double :=
  ofBits (Layout.double.round negative num den)

/-- The nearest number to a natural number. -/
def ofNat (n : Nat) : Double := ofQuotient false n 1

/-- The nearest number to `10 ^ n`. -/
def tenPow (n : Nat) : Double := ofNat (powTen n)

/-- The number with the other sign. -/
def neg (x : Double) : Double := ⟨x.bits ^^^ 0x8000000000000000⟩

/-- Whether the number is zero, of either sign. -/
def isZero (x : Double) : Bool :=
  match x.decode with
  | .finite _ mantissa _ => mantissa == 0
  | _ => false

/-- Whether the number is one of the infinities. -/
def isInfinite (x : Double) : Bool :=
  match x.decode with
  | .infinite _ => true
  | _ => false

/-- Whether the number is above zero. -/
def isPositive (x : Double) : Bool :=
  match x.decode with
  | .finite negative mantissa _ => !negative && mantissa != 0
  | .infinite negative => !negative
  | .nan => false

/-- The product, rounded once. -/
def mul (x y : Double) : Double :=
  match x.decode, y.decode with
  | .finite n m e, .finite n' m' e' =>
    ofBits (Layout.double.roundScaled (n ^^ n') (m * m') (e + e'))
  | .infinite n, .infinite n' => ofBits (Layout.double.withSign (n ^^ n') Layout.double.infinity)
  | .infinite n, .finite n' m _ | .finite n' m _, .infinite n =>
    if m = 0 then ofBits Layout.double.quietNan
    else ofBits (Layout.double.withSign (n ^^ n') Layout.double.infinity)
  | _, _ => ofBits Layout.double.quietNan

/-- The quotient, rounded once. -/
def div (x y : Double) : Double :=
  match x.decode, y.decode with
  | .finite n m e, .finite n' m' e' =>
    if m' = 0 then
      if m = 0 then ofBits Layout.double.quietNan
      else ofBits (Layout.double.withSign (n ^^ n') Layout.double.infinity)
    else
      let quotient := Layout.scaled m m' (e' - e)
      ofQuotient (n ^^ n') quotient.1 quotient.2
  | .infinite n, .finite n' _ _ => ofBits (Layout.double.withSign (n ^^ n') Layout.double.infinity)
  | .finite n _ _, .infinite n' => ofBits (Layout.double.withSign (n ^^ n') 0)
  | _, _ => ofBits Layout.double.quietNan

end Double

namespace Single

/-- The pattern of a natural number below `2 ^ 32`. -/
def ofBits (bits : Nat) : Single := ⟨UInt32.ofNat bits⟩

/-- The number that the pattern stands for. -/
def decode (x : Single) : Decoded := Layout.single.decode x.bits.toNat

/-- Positive zero. -/
def zero : Single := ⟨0⟩

/-- The number one. -/
def one : Single := ⟨0x3f800000⟩

instance : Inhabited Single := ⟨zero⟩

/-- The nearest number to a whole number. -/
def ofInt (negative : Bool) (n : Nat) : Single := ofBits (Layout.single.round negative n 1)

/-- The nearest number of 32 bits to one of 64 bits. -/
def ofDouble (x : Double) : Single :=
  match x.decode with
  | .finite negative mantissa exponent =>
    ofBits (Layout.single.roundScaled negative mantissa exponent)
  | .infinite negative => ofBits (Layout.single.withSign negative Layout.single.infinity)
  | .nan => ofBits Layout.single.quietNan

end Single

end ContinuousBatching.Number
