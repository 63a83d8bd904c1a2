/-
**Whole numbers in a text.**

A number is read as a whole one exactly if it is written as one, with neither sign nor point nor
exponent and without needless zeros, and fits into 64 bits. Any other number becomes one of floating
point.

* `Decimal`: what a whole number is, and what may follow it;
* `Numeral.ofText_natural_iff`, `numeral_natural_iff`: what is read as a whole number;
* `natBelow_eq_ok_iff`: the same for a number below a bound, other values being turned down.
-/

import ContinuousBatching.Json.Record
import ContinuousBatching.Proofs.Json.Reader
import Mathlib.Data.List.TakeWhile
import Mathlib.Tactic.SplitIfs

namespace ContinuousBatching.Json

variable {α : Type} {text rest : List Char}

/-! ### Whole numbers -/

/-- What goes on with a number that began with digits. -/
def continues (c : Char) : Bool := c.isDigit || c = '.' || c = 'e' || c = 'E'

/-- The text begins with a whole number, and `rest` is behind it. -/
structure Decimal (text : List Char) (n : Nat) (rest : List Char) : Prop where
  digits : ∃ digits, text = digits ++ rest ∧ digits ≠ [] ∧ (∀ c ∈ digits, c.isDigit) ∧
    (∀ more, digits = '0' :: more → more = []) ∧ n = Nat.ofDigitChars 10 digits 0
  ends : rest.head?.any continues = false

theorem Decimal.shorter {n : Nat} (decimal : Decimal text n rest) : rest.length ≤ text.length := by
  obtain ⟨digits, rfl, _⟩ := decimal.digits
  rw [List.length_append]
  exact Nat.le_add_left _ _

namespace Numeral

theorem le_ofDigitChars (digits : List Char) (n : Nat) : n ≤ Nat.ofDigitChars 10 digits n := by
  induction digits generalizing n with
  | nil => exact Nat.le_refl n
  | cons c digits ih =>
      have longer := ih (10 * n + (c.toNat - '0'.toNat))
      rw [Nat.ofDigitChars_cons]
      omega

/-- Digits are collected into the number that they write, as long as it fits. -/
theorem collect_eq_iff {digits : List Char} {n m : Nat} (fits : n < Count.limit) :
    collect n digits = (m, 0) ↔
      Nat.ofDigitChars 10 digits n < Count.limit ∧ m = Nat.ofDigitChars 10 digits n := by
  induction digits generalizing n with
  | nil => simp [collect, fits, eq_comm]
  | cons c digits ih =>
      have same : n * 10 + digit c = 10 * n + (c.toNat - '0'.toNat) := by
        rw [digit, Nat.mul_comm]
      rw [collect, Nat.ofDigitChars_cons, same]
      by_cases longer : 10 * n + (c.toNat - '0'.toNat) < Count.limit
      · rw [if_pos longer]
        exact ih longer
      · have large := le_ofDigitChars digits (10 * n + (c.toNat - '0'.toNat))
        rw [if_neg longer]
        constructor
        · intro done
          exact absurd (congrArg Prod.snd done) (Nat.succ_ne_zero _)
        · rintro ⟨below, _⟩
          omega

theorem assemble_real {negative : Bool} {significand : Nat} {exponent : Int} {x : Numeral}
    (done : assemble negative significand exponent = .ok x) : ∃ y, x = .real y := by
  unfold assemble at done
  dsimp only at done
  split_ifs at done <;> cases done <;> exact ⟨_, rfl⟩

theorem assembled_real {negative : Bool} {significand : Nat} {exponent : Int} {x : Numeral}
    (done : (assemble negative significand exponent >>= fun x => .ok (x, text)) = .ok (x, rest)) :
    ∃ y, x = .real y := by
  obtain ⟨y, assembled, done⟩ := bind_eq_ok_iff.mp done
  cases done
  exact assemble_real assembled

theorem ofExponent_real {negative : Bool} {significand : Nat} {start : Int} {x : Numeral}
    (done : ofExponent negative significand start text = .ok (x, rest)) : ∃ y, x = .real y := by
  unfold ofExponent at done
  dsimp only at done
  split at done
  · cases done
  · split_ifs at done
    · exact assembled_real done
    · exact assembled_real done
    · exact assembled_real done

theorem ofFraction_real {negative : Bool} {significand : Nat} {start : Int} {x : Numeral}
    (done : ofFraction negative significand start text = .ok (x, rest)) : ∃ y, x = .real y := by
  unfold ofFraction at done
  dsimp only at done
  split at done
  · split_ifs at done
    split at done
    · split_ifs at done
      · exact ofExponent_real done
      · exact assembled_real done
    · exact assembled_real done
  · split_ifs at done
    · exact ofExponent_real done
    · exact assembled_real done
  · exact assembled_real done

/-- What is behind the first digits does not begin with a digit. -/
theorem head_dropDigits (text : List Char) :
    (text.dropWhile Char.isDigit).head?.any Char.isDigit = false := by
  have other := List.head?_dropWhile_not Char.isDigit text
  cases behind : (text.dropWhile Char.isDigit).head? with
  | none => rfl
  | some c =>
      rw [behind] at other
      simpa using other

theorem continues_eq (text : List Char) : text.head?.any continues =
    (text.head?.any Char.isDigit || text.head?.any fun c => c = '.' || c = 'e' || c = 'E') := by
  cases text with
  | nil => rfl
  | cons c text => simp [continues, Bool.or_assoc]

/-- **A whole number** is read exactly where one is written and fits into 64 bits. -/
theorem ofText_natural_iff {n : Nat} :
    ofText false text = .ok (.natural n, rest) ↔ Decimal text n rest ∧ n < Count.limit := by
  constructor
  · intro read
    unfold ofText at read
    dsimp only at read
    split at read
    · split at read <;> cases read
    · cases read
    · rename_i notEmpty single
      split at read
      · rename_i whole
        obtain ⟨none, ends⟩ := whole
        have parts := Except.ok.inj read
        have value : (collect 0 (text.takeWhile Char.isDigit)).1 = n :=
          natural.inj (congrArg Prod.fst parts)
        have behind : text.dropWhile Char.isDigit = rest := congrArg Prod.snd parts
        obtain ⟨below, same⟩ := (collect_eq_iff (by decide)).mp (Prod.ext value none)
        rw [← same] at below
        refine ⟨⟨⟨text.takeWhile Char.isDigit, ?_, notEmpty, fun c member => ?_,
          fun more zero => ?_, same⟩, ?_⟩, below⟩
        · rw [← behind, List.takeWhile_append_dropWhile]
        · exact List.mem_takeWhile_imp member
        · cases more with
          | nil => rfl
          | cons c more => exact absurd zero (single c more)
        · rw [← behind, continues_eq, head_dropDigits]
          simpa using ends
      · obtain ⟨y, same⟩ := ofFraction_real read
        cases same
  · rintro ⟨⟨⟨digits, rfl, some, all, single, rfl⟩, ends⟩, below⟩
    rw [continues_eq, Bool.or_eq_false_iff] at ends
    have stop : rest.takeWhile Char.isDigit = [] ∧ rest.dropWhile Char.isDigit = rest := by
      cases rest with
      | nil => simp
      | cons c rest =>
          have other : c.isDigit = false := by simpa using ends.1
          simp [other]
    have taken : (digits ++ rest).takeWhile Char.isDigit = digits := by
      rw [List.takeWhile_append_of_pos all, stop.1, List.append_nil]
    have dropped : (digits ++ rest).dropWhile Char.isDigit = rest := by
      rw [List.dropWhile_append_of_pos all, stop.2]
    have collected := (collect_eq_iff (by decide)).mpr ⟨below, rfl⟩
    unfold ofText
    rw [taken, dropped]
    dsimp only
    split
    · exact absurd rfl some
    · rename_i c more
      cases single _ rfl
    · rw [collected]
      dsimp only
      rw [if_pos ⟨rfl, by rw [ends.2]; rfl⟩]
      rfl

theorem ofText_ne_natural {n : Nat} : ofText true text ≠ .ok (.natural n, rest) := by
  intro read
  unfold ofText at read
  dsimp only at read
  split at read
  · split at read <;> cases read
  · cases read
  · split at read
    · have same : ofWhole true _ = natural n := congrArg Prod.fst (Except.ok.inj read)
      unfold ofWhole at same
      rw [if_neg (by decide)] at same
      split at same <;> cases same
    · obtain ⟨y, same⟩ := ofFraction_real read
      cases same

end Numeral

theorem numeral_natural_iff {n : Nat} :
    numeral text = .ok (.natural n, rest) ↔ Decimal text n rest ∧ n < Count.limit := by
  unfold numeral
  rw [get_bind]
  split
  · rename_i more
    simp only [bind_eq_ok, liftM_eq_ok, set_eq_ok, pure_eq_ok]
    constructor
    · rintro ⟨⟨x, behind⟩, _, ⟨read, -⟩, _, _, rfl, rfl, rfl⟩
      exact absurd read Numeral.ofText_ne_natural
    · rintro ⟨⟨⟨digits, same, filled, all, _⟩, _⟩, _⟩
      cases digits with
      | nil => exact absurd rfl filled
      | cons c digits =>
          cases same
          exact absurd (all '-' List.mem_cons_self) (by decide)
  · simp only [bind_eq_ok, liftM_eq_ok, set_eq_ok, pure_eq_ok, ← Numeral.ofText_natural_iff]
    constructor
    · rintro ⟨⟨x, behind⟩, _, ⟨read, -⟩, _, _, rfl, rfl, rfl⟩
      exact read
    · intro read
      exact ⟨_, _, ⟨read, rfl⟩, (), _, rfl, rfl, rfl⟩

theorem peekValue_bind_iff {next : Char → Reader α} {value : α} :
    (peekValue >>= next) text = .ok (value, rest) ↔
      ∃ c more, afterBlanks text = c :: more ∧ next c (c :: more) = .ok (value, rest) := by
  unfold peekValue
  simp only [bind_assoc]
  rw [skipBlanks_bind, get_bind]
  cases afterBlanks text with
  | nil => simp
  | cons c more => simp

/-- A value of another kind is never taken. -/
theorem otherKind_ne_ok {c : Char} {value : α} :
    ¬ (otherKind c : Reader α) text = .ok (value, rest) := by
  unfold otherKind
  dsimp only
  split_ifs <;> simp

/-- **A whole number below a bound**, blanks in front of it. -/
theorem natBelow_eq_ok_iff {bound n : Nat} (small : bound ≤ Count.limit) :
    natBelow bound text = .ok (n, rest) ↔ Decimal (afterBlanks text) n rest ∧ n < bound := by
  unfold natBelow
  rw [peekValue_bind_iff]
  constructor
  · rintro ⟨c, more, first, read⟩
    rw [first]
    split at read
    · rw [bind_eq_ok] at read
      obtain ⟨x, mid, number, read⟩ := read
      cases x with
      | natural m =>
          dsimp only at read
          split at read
          · rename_i below
            obtain ⟨rfl, rfl⟩ := pure_eq_ok.mp read
            exact ⟨(numeral_natural_iff.mp number).1, below⟩
          · exact absurd read throw_ne_ok
      | negative m => exact absurd read throw_ne_ok
      | real x => exact absurd read throw_ne_ok
    · exact absurd read otherKind_ne_ok
  · rintro ⟨decimal, below⟩
    obtain ⟨digits, same, filled, all, _⟩ := decimal.digits
    cases digits with
    | nil => exact absurd rfl filled
    | cons c digits =>
        have digit := all c List.mem_cons_self
        have number := numeral_natural_iff.mpr ⟨decimal, Nat.lt_of_lt_of_le below small⟩
        rw [same] at number
        refine ⟨c, digits ++ rest, same, ?_⟩
        rw [if_pos (by simp [beginsNumber, digit]), bind_eq_ok]
        refine ⟨.natural n, rest, number, ?_⟩
        simp [below]

end ContinuousBatching.Json
