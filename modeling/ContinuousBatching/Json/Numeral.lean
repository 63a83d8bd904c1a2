/-
**Reading numbers.**

A number is kept as a whole number as long as it is written as one and fits into 64 bits. Otherwise
it becomes a floating-point number in the following way: its digits are collected into a whole
number of 64 bits until the next one does not fit, the digits left over only move the decimal point,
and the collected number is rounded and then multiplied with, or divided by, the power of ten that
remains (`Numeral.assemble`). A number too large for a floating-point number is no number.
-/

import ContinuousBatching.Count
import ContinuousBatching.Json.Reader
import ContinuousBatching.Number.Binary

namespace ContinuousBatching.Json

open ContinuousBatching.Number

/-- A number as it was written. -/
inductive Numeral where
  /-- A whole number below `2 ^ 64`. -/
  | natural (n : Nat)
  /-- The negative of a positive whole number of at most `2 ^ 63`. -/
  | negative (n : Nat)
  /-- Any other number. -/
  | real (x : Double)
  deriving DecidableEq, Repr

namespace Numeral

/-- The value of a decimal digit. -/
def digit (c : Char) : Nat := c.toNat - '0'.toNat

/-- Appends digits to a whole number as long as it fits into 64 bits, and counts those left over. -/
def collect (n : Nat) : List Char → Nat × Nat
  | [] => (n, 0)
  | c :: rest =>
    let longer := n * 10 + digit c
    if longer < Count.limit then collect longer rest else (n, rest.length + 1)

/-- Divides by a power of ten, `10 ^ 308` at a time, until nothing is left. -/
def shrink (x : Double) (places : Nat) : Double :=
  if places ≤ 308 then x.div (.tenPow places)
  else if x.isZero then x
  else shrink (x.div (.tenPow 308)) (places - 308)
termination_by places

/-- The number `significand * 10 ^ exponent`, rounded first as a whole number and then by the power
of ten. -/
def assemble (negative : Bool) (significand : Nat) (exponent : Int) : Except Malformed Numeral :=
  let x := Double.ofNat significand
  let signed (x : Double) : Numeral := .real (if negative then x.neg else x)
  if exponent < 0 then .ok (signed (shrink x exponent.natAbs))
  else if exponent ≤ 308 then
    let y := x.mul (.tenPow exponent.natAbs)
    if y.isInfinite then .error .illFormed else .ok (signed y)
  else if x.isZero then .ok (signed x)
  else .error .illFormed

/-- An exponent from its sign on, `start` being the exponent that the digits before it call for. -/
def ofExponent (negative : Bool) (significand : Nat) (start : Int) (text : List Char) :
    Except Malformed (Numeral × List Char) :=
  let (up, text) : Bool × List Char :=
    match text with
    | '+' :: rest => (true, rest)
    | '-' :: rest => (false, rest)
    | text => (true, text)
  match text with
  | [] => .error .truncated
  | c :: _ =>
    if c.isDigit then
      let size := (text.takeWhile Char.isDigit).foldl (fun n c => n * 10 + digit c) 0
      let rest := text.dropWhile Char.isDigit
      if size < 0x80000000 then do
        let x ← assemble negative significand (if up then start + size else start - size)
        .ok (x, rest)
      else if up ∧ significand ≠ 0 then .error .illFormed
      else do
        let x ← assemble negative 0 0
        .ok (x, rest)
    else .error .illFormed

/-- What may follow the digits before the decimal point, when the number is not a whole one. -/
def ofFraction (negative : Bool) (significand : Nat) (start : Int) (text : List Char) :
    Except Malformed (Numeral × List Char) :=
  match text with
  | '.' :: rest =>
    let digits := rest.takeWhile Char.isDigit
    let after := rest.dropWhile Char.isDigit
    if digits.isEmpty then
      if after.isEmpty then .error .truncated else .error .illFormed
    else
      let (longer, left) := collect significand digits
      let exponent : Int := start - (digits.length - left : Nat)
      match after with
      | c :: rest =>
        if c = 'e' ∨ c = 'E' then ofExponent negative longer exponent rest
        else do .ok (← assemble negative longer exponent, after)
      | [] => do .ok (← assemble negative longer exponent, [])
  | c :: rest =>
    if c = 'e' ∨ c = 'E' then ofExponent negative significand start rest
    else do .ok (← assemble negative significand start, text)
  | [] => do .ok (← assemble negative significand start, [])

/-- A whole number with its sign; a zero with a minus sign, and a number below `-2 ^ 63`, are no
whole numbers. -/
def ofWhole (negative : Bool) (n : Nat) : Numeral :=
  if !negative then .natural n
  else if n = 0 ∨ 0x8000000000000000 < n then .real (Double.ofNat n).neg
  else .negative n

/-- A number from its first digit on. -/
def ofText (negative : Bool) (text : List Char) : Except Malformed (Numeral × List Char) :=
  let digits := text.takeWhile Char.isDigit
  let after := text.dropWhile Char.isDigit
  match digits with
  | [] => if text.isEmpty then .error .truncated else .error .illFormed
  | '0' :: _ :: _ => .error .illFormed
  | digits =>
    let (n, left) := collect 0 digits
    let whole := left = 0 ∧ !(after.head?.any fun c => c = '.' || c = 'e' || c = 'E')
    if whole then .ok (ofWhole negative n, after) else ofFraction negative n left after

end Numeral

/-- A number, which comes next. -/
def numeral : Reader Numeral := do
  let text ← get
  let (x, rest) ←
    match text with
    | '-' :: rest => Numeral.ofText true rest
    | text => Numeral.ofText false text
  set rest
  pure x

end ContinuousBatching.Json
