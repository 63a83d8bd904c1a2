/-
**The fewest digits that read back.**

A finite number other than zero is written with the fewest significant decimal digits that no other
pattern is nearer to, and among those with the digits nearest to it (a tie goes to the even digit).
`Layout.shortest` finds them: it takes the interval of reals that round to the pattern, with its
ends if the mantissa is even, and looks on ever finer decimal grids for a point in it. On each grid
only the two neighbours of the value matter.

How the digits are laid out is the `Style` of the format: between two exponents in positional
notation, always with a point, and outside them with an exponent that shows its sign.
-/

import ContinuousBatching.Number.Binary

namespace ContinuousBatching.Number

/-- Significant digits as a whole number, and the exponent of the last of them: the value is
`digits * 10 ^ exponent`. -/
structure Decimal where
  digits : Nat
  exponent : Int
  deriving DecidableEq, Repr

/-- The reals that round to one pattern, as multiples of a common unit. -/
structure Interval where
  low : Nat
  value : Nat
  high : Nat
  /-- Whether the two ends belong to the interval. -/
  closed : Bool

/-- Whether a multiple of the unit lies in the interval. -/
def Interval.holds (i : Interval) (x : Nat) : Bool :=
  if i.closed then i.low ≤ x && x ≤ i.high else i.low < x && x < i.high

/-- The nearer of the two neighbours of the value on the grid of multiples of `step` that lies in
the interval; a tie goes to the even multiple. -/
def Interval.onGrid? (i : Interval) (step : Nat) : Option Nat :=
  let below := i.value / step
  let down := i.holds (below * step)
  let up := i.holds ((below + 1) * step)
  let toBelow := i.value - below * step
  let toAbove := (below + 1) * step - i.value
  if down && up then
    if toBelow < toAbove || (toBelow == toAbove && below % 2 == 0) then some below
    else some (below + 1)
  else if down then some below
  else if up then some (below + 1)
  else none

/-- Drops zeros at the end. -/
def Decimal.trim : Nat → Decimal → Decimal
  | 0, d => d
  | steps + 1, d =>
    if d.digits % 10 = 0 ∧ d.digits ≠ 0 then trim steps ⟨d.digits / 10, d.exponent + 1⟩ else d

/-- The interval of `mantissa * 2 ^ exponent` in units of `2 ^ (exponent - 2) * 10 ^ low`, and that
unit's multiple for the grid of `10 ^ place`, where `low ≤ place`. Below a power of two the numbers
lie twice as close. -/
def Layout.interval (layout : Layout) (mantissa : Nat) (exponent low : Int) : Interval :=
  let isPower := mantissa = powTwo layout.fractionBits ∧ layout.minExponent < exponent
  let lowGap := if isPower then 1 else 2
  let two := powTwo (max 0 (exponent - 2)).toNat
  let ten := powTen (max 0 (-low)).toNat
  let scale := two * ten
  { low := (4 * mantissa - lowGap) * scale
    value := 4 * mantissa * scale
    high := (4 * mantissa + 2) * scale
    closed := mantissa % 2 == 0 }

/-- The first hit on the grids of `10 ^ place`, `10 ^ (place - 1)`, ... -/
def searchGrids (i : Interval) (unit : Int → Nat) : Nat → Int → Decimal
  | 0, place => ⟨i.value / unit place, place⟩
  | steps + 1, place =>
    match i.onGrid? (unit place) with
    | some digits => ⟨digits, place⟩
    | none => searchGrids i unit steps (place - 1)

/-- The shortest digits of `mantissa * 2 ^ exponent`, a positive number of the layout. -/
def Layout.shortest (layout : Layout) (mantissa : Nat) (exponent : Int) : Decimal :=
  -- the value lies below `10 ^ top`, since `30103 / 100000` exceeds the logarithm of two
  let top : Int := ((mantissa.log2 : Int) + 1 + exponent) * 30103 / 100000 + 1
  -- seventeen digits always suffice, and the first grid may be too coarse by one
  let low : Int := top - 19
  let i := layout.interval mantissa exponent low
  let two := powTwo (max 0 (2 - exponent)).toNat
  let unit (place : Int) : Nat := two * powTen (place - min 0 low).toNat
  (searchGrids i unit 19 top).trim 25

/-- How digits are laid out. -/
structure Style where
  /-- The smallest decimal exponent that is written positionally. -/
  positionalFrom : Int
  /-- The largest decimal exponent that is written positionally. -/
  positionalTo : Int

/-- Numbers of 32 bits are written positionally from `0.000001` up to below `1e13`. -/
def Style.single : Style := ⟨-6, 12⟩

/-- Numbers of 64 bits are written positionally from `0.00001` up to below `1e16`. -/
def Style.double : Style := ⟨-5, 15⟩

/-- A run of zeros. -/
def zeros (n : Nat) : String := String.ofList (List.replicate n '0')

/-- The text of a positive number, from its digits. -/
def Style.layOut (style : Style) (d : Decimal) : String :=
  let digits := toString d.digits
  let leading : Int := d.exponent + digits.length - 1
  if style.positionalFrom ≤ leading ∧ leading ≤ style.positionalTo then
    if 0 ≤ d.exponent then digits ++ zeros d.exponent.toNat ++ ".0"
    else if 0 ≤ leading then
      let whole := leading.toNat + 1
      String.ofList (digits.toList.take whole) ++ "." ++ String.ofList (digits.toList.drop whole)
    else "0." ++ zeros (-leading - 1).toNat ++ digits
  else
    let rest := digits.toList.drop 1
    let point := if rest.isEmpty then "" else "." ++ String.ofList rest
    let sign := if leading < 0 then "-" else "+"
    String.ofList (digits.toList.take 1) ++ point ++ "e" ++ sign ++ toString leading.natAbs

/-- The text of a decoded number; a number that is not finite has none. -/
def Decoded.text? (layout : Layout) (style : Style) : Decoded → Option String
  | .nan | .infinite _ => none
  | .finite negative mantissa exponent =>
    let sign := if negative then "-" else ""
    some (sign ++ if mantissa = 0 then "0.0"
      else style.layOut (layout.shortest mantissa exponent))

/-- The shortest text of a number of 32 bits. -/
def Single.text? (x : Single) : Option String := x.decode.text? .single .single

/-- The shortest text of a number of 64 bits. -/
def Double.text? (x : Double) : Option String := x.decode.text? .double .double

end ContinuousBatching.Number
