/-
**Strings and how readers follow each other.**

What a reader takes off a text is said by a relation between the text and the rest of it. The
relations have no bound on the rounds and no order of troubles; where a reader counts rounds, there
are enough of them.

* `bind_eq_ok`, `get_bind`, `liftM_eq_ok`: one reader after another;
* `StringTail`: what a string is, behind its opening quotation mark;
* `quoted_eq_ok_iff`: what is read as a string;
* `afterString_eq_ok_iff`: what is passed over as one.
-/

import ContinuousBatching.Json.Reader
import ContinuousBatching.Proofs.Outcome

namespace ContinuousBatching.Json

variable {α β : Type} {text rest : List Char}

/-! ### Readers one after another -/

@[simp]
theorem bind_eq_ok {reader : Reader β} {next : β → Reader α} {value : α} :
    (reader >>= next) text = .ok (value, rest) ↔
      ∃ first mid, reader text = .ok (first, mid) ∧ next first mid = .ok (value, rest) := by
  show (reader text >>= fun pair => next pair.1 pair.2) = .ok (value, rest) ↔ _
  cases reader text with
  | error trouble => simp [bind, Except.bind]
  | ok pair =>
      constructor
      · intro done
        exact ⟨pair.1, pair.2, rfl, done⟩
      · rintro ⟨first, mid, same, done⟩
        cases same
        exact done

@[simp]
theorem pure_eq_ok {given value : α} :
    (pure given : Reader α) text = .ok (value, rest) ↔ given = value ∧ text = rest := by
  show Except.ok (given, text) = .ok (value, rest) ↔ _
  simp

@[simp]
theorem map_eq_ok {reader : Reader β} {f : β → α} {value : α} :
    (f <$> reader) text = .ok (value, rest) ↔
      ∃ first, reader text = .ok (first, rest) ∧ f first = value := by
  show (reader >>= fun first => pure (f first)) text = .ok (value, rest) ↔ _
  rw [bind_eq_ok]
  constructor
  · rintro ⟨first, mid, read, done⟩
    obtain ⟨same, rfl⟩ := pure_eq_ok.mp done
    exact ⟨first, read, same⟩
  · rintro ⟨first, read, same⟩
    exact ⟨first, rest, read, pure_eq_ok.mpr ⟨same, rfl⟩⟩

@[simp]
theorem throw_ne_ok {trouble : Malformed} {value : α} :
    ¬ (throw trouble : Reader α) text = .ok (value, rest) := by
  intro same
  cases same

@[simp]
theorem get_bind {next : List Char → Reader α} : (get >>= next) text = next text text := rfl

@[simp]
theorem skipBlanks_bind {next : Unit → Reader α} :
    (skipBlanks >>= next) text = next () (afterBlanks text) := rfl

@[simp]
theorem skipOne_bind {next : Unit → Reader α} :
    (skipOne >>= next) text = next () (text.drop 1) := rfl

@[simp]
theorem set_eq_ok {next : List Char} {value : Unit} :
    (set next : Reader Unit) text = .ok (value, rest) ↔ next = rest := by
  show Except.ok ((), next) = .ok ((), rest) ↔ _
  simp

@[simp]
theorem liftM_eq_ok {x : Except Malformed α} {value : α} :
    (liftM x : Reader α) text = .ok (value, rest) ↔ x = .ok value ∧ text = rest := by
  cases x with
  | error trouble =>
      constructor
      · intro same
        cases same
      · rintro ⟨same, _⟩
        cases same
  | ok given =>
      show Except.ok (given, text) = .ok (value, rest) ↔ _
      simp

/-! ### Blanks and words -/

/-- Blanks are passed over only once. -/
@[simp]
theorem afterBlanks_afterBlanks (text : List Char) :
    afterBlanks (afterBlanks text) = afterBlanks text := by
  induction text with
  | nil => rfl
  | cons c text ih =>
      by_cases blank : isBlank c
      · simpa [afterBlanks, blank] using ih
      · simp [afterBlanks, blank]

theorem length_afterBlanks_le (text : List Char) : (afterBlanks text).length ≤ text.length :=
  (List.dropWhile_suffix isBlank).length_le

theorem afterWord_eq_ok_iff {word : List Char} :
    ∀ {text : List Char}, afterWord word text = .ok rest ↔ text = word ++ rest := by
  induction word with
  | nil => simp [afterWord]
  | cons c word ih =>
      intro text
      cases text with
      | nil => simp [afterWord]
      | cons d text =>
          by_cases same : c = d
          · simp [afterWord, same, ih]
          · simp [afterWord, same, Ne.symm same]

/-! ### Strings -/

/-- What follows the opening quotation mark of a string: its characters up to the closing mark, and
the text behind it. What follows a backslash is read as `escape` says. -/
inductive StringTail (escape : List Char → Char → List Char → Prop) :
    List Char → List Char → List Char → Prop
  | close {rest : List Char} : StringTail escape ('"' :: rest) [] rest
  | plain {c : Char} {text chars rest : List Char} (goesOn : c ≠ '"') (raw : c ≠ '\\')
      (shown : ¬ c.toNat < 0x20) (later : StringTail escape text chars rest) :
      StringTail escape (c :: text) (c :: chars) rest
  | escaped {d : Char} {text mid chars rest : List Char} (one : escape text d mid)
      (later : StringTail escape mid chars rest) :
      StringTail escape ('\\' :: text) (d :: chars) rest

/-- A string that is kept. -/
abbrev Kept : List Char → List Char → List Char → Prop :=
  StringTail fun text d rest => escaped text = .ok (d, rest)

/-- A string that nobody keeps; what its escapes stand for is left open. -/
def Passed (text rest : List Char) : Prop :=
  ∃ chars, StringTail (fun text _ rest => afterEscape text = .ok rest) text chars rest

theorem StringTail.length_lt {escape : List Char → Char → List Char → Prop} {chars : List Char}
    (shorter : ∀ text d rest, escape text d rest → rest.length ≤ text.length)
    (string : StringTail escape text chars rest) : chars.length + rest.length < text.length := by
  induction string with
  | close => simp
  | plain _ _ _ _ ih =>
      simp only [List.length_cons]
      omega
  | escaped one _ ih =>
      have fewer := shorter _ _ _ one
      simp only [List.length_cons]
      omega

theorem kept_of_stringRest {rounds : Nat} {taken chars : List Char}
    (read : stringRest rounds taken text = .ok (chars, rest)) :
    ∃ own, Kept text own rest ∧ chars = taken.reverse ++ own := by
  fun_induction stringRest rounds taken text with
  | case1 => cases read
  | case2 => cases read
  | case3 rounds taken text =>
      cases read
      exact ⟨[], .close, by simp⟩
  | case4 rounds taken text _ ih =>
      cases one : escaped text with
      | error trouble =>
          rw [one] at read
          cases read
      | ok pair =>
          rw [one] at read
          obtain ⟨own, later, same⟩ := ih pair.1 pair.2 read
          exact ⟨pair.1 :: own, .escaped one later, by simp [same]⟩
  | case5 => cases read
  | case6 rounds taken c text goesOn raw shown ih =>
      obtain ⟨own, later, same⟩ := ih read
      exact ⟨c :: own, .plain goesOn raw shown later, by simp [same]⟩

theorem Kept.stringRest {own : List Char} (string : Kept text own rest) :
    ∀ (taken : List Char) (rounds : Nat), own.length < rounds →
      stringRest rounds taken text = .ok (taken.reverse ++ own, rest) := by
  induction string with
  | close =>
      intro taken rounds enough
      obtain ⟨rounds, rfl⟩ := Nat.exists_eq_succ_of_ne_zero (Nat.ne_zero_of_lt enough)
      simp [Json.stringRest]
  | @plain c _ _ _ goesOn raw shown _ ih =>
      intro taken rounds enough
      obtain ⟨rounds, rfl⟩ := Nat.exists_eq_succ_of_ne_zero (Nat.ne_zero_of_lt enough)
      have later := ih (c :: taken) rounds (Nat.lt_of_succ_lt_succ enough)
      rw [Json.stringRest, if_neg goesOn, if_neg raw, if_neg shown, later]
      simp
  | @escaped d _ _ _ _ one _ ih =>
      intro taken rounds enough
      obtain ⟨rounds, rfl⟩ := Nat.exists_eq_succ_of_ne_zero (Nat.ne_zero_of_lt enough)
      have later := ih (d :: taken) rounds (Nat.lt_of_succ_lt_succ enough)
      rw [Json.stringRest, if_neg (by decide), if_pos rfl, one]
      show Json.stringRest rounds _ _ = _
      rw [later]
      simp

theorem passed_of_afterString {rounds : Nat} (read : afterString rounds text = .ok rest) :
    Passed text rest := by
  fun_induction afterString rounds text with
  | case1 => cases read
  | case2 => cases read
  | case3 rounds text =>
      cases read
      exact ⟨[], .close⟩
  | case4 rounds text _ ih =>
      cases one : afterEscape text with
      | error trouble =>
          rw [one] at read
          cases read
      | ok mid =>
          rw [one] at read
          obtain ⟨chars, later⟩ := ih mid read
          exact ⟨' ' :: chars, .escaped one later⟩
  | case5 => cases read
  | case6 rounds c text goesOn raw shown ih =>
      obtain ⟨chars, later⟩ := ih read
      exact ⟨c :: chars, .plain goesOn raw shown later⟩

theorem StringTail.afterString {chars : List Char}
    (string : StringTail (fun text _ rest => afterEscape text = .ok rest) text chars rest) :
    ∀ rounds : Nat, chars.length < rounds → afterString rounds text = .ok rest := by
  induction string with
  | close =>
      intro rounds enough
      obtain ⟨rounds, rfl⟩ := Nat.exists_eq_succ_of_ne_zero (Nat.ne_zero_of_lt enough)
      rfl
  | plain goesOn raw shown _ ih =>
      intro rounds enough
      obtain ⟨rounds, rfl⟩ := Nat.exists_eq_succ_of_ne_zero (Nat.ne_zero_of_lt enough)
      rw [Json.afterString, if_neg goesOn, if_neg raw, if_neg shown]
      exact ih rounds (Nat.lt_of_succ_lt_succ enough)
  | escaped one _ ih =>
      intro rounds enough
      obtain ⟨rounds, rfl⟩ := Nat.exists_eq_succ_of_ne_zero (Nat.ne_zero_of_lt enough)
      rw [Json.afterString, if_neg (by decide), if_pos rfl, one]
      exact ih rounds (Nat.lt_of_succ_lt_succ enough)

theorem hexQuad_shorter {n : Nat} (read : hexQuad text = .ok (n, rest)) :
    rest.length ≤ text.length := by
  unfold hexQuad at read
  split at read
  · split at read
    · cases read
      simp only [List.length_cons]
      omega
    · cases read
  · split at read <;> cases read

theorem afterEscape_shorter (read : afterEscape text = .ok rest) : rest.length ≤ text.length := by
  unfold afterEscape at read
  split at read
  · cases read
  · rename_i text
    cases quad : hexQuad text with
    | error trouble =>
        rw [quad] at read
        cases read
    | ok pair =>
        rw [quad] at read
        cases read
        exact Nat.le_succ_of_le (hexQuad_shorter quad)
  · split at read
    · cases read
      exact Nat.le_succ _
    · cases read

theorem escaped_shorter {d : Char} (read : escaped text = .ok (d, rest)) :
    rest.length ≤ text.length := by
  unfold escaped at read
  split at read
  · cases read
  · obtain ⟨⟨lead, mid⟩, quad, read⟩ := bind_eq_ok_iff.mp read
    have shorter := hexQuad_shorter quad
    dsimp only at read
    split at read
    · cases read
    · split at read
      · cases read
        exact Nat.le_succ_of_le shorter
      · split at read
        · cases read
        · cases read
        · obtain ⟨⟨trail, late⟩, quad, read⟩ := bind_eq_ok_iff.mp read
          have shorter' := hexQuad_shorter quad
          dsimp only at read
          split at read
          · have behind : late = rest := congrArg Prod.snd (Except.ok.inj read)
            rw [← behind]
            simp only [List.length_cons] at shorter ⊢
            omega
          · cases read
        · cases read
  · split at read
    · cases read
      exact Nat.le_succ _
    · cases read

theorem afterString_eq_ok_iff :
    afterString (text.length + 1) text = .ok rest ↔ Passed text rest := by
  refine ⟨passed_of_afterString, ?_⟩
  rintro ⟨chars, string⟩
  have fits : chars.length < text.length + 1 := by
    have bounded := string.length_lt fun _ _ _ => afterEscape_shorter
    omega
  exact string.afterString _ fits

/-- A string that is kept, from its opening quotation mark on. -/
theorem quoted_eq_ok_iff {name : String} :
    quoted text = .ok (name, rest) ↔
      ∃ chars, Kept (text.drop 1) chars rest ∧ String.ofList chars = name := by
  unfold quoted
  rw [skipOne_bind, get_bind]
  simp only [bind_eq_ok, liftM_eq_ok, set_eq_ok, pure_eq_ok]
  constructor
  · rintro ⟨⟨chars, behind⟩, _, ⟨read, -⟩, _, _, rfl, rfl, rfl⟩
    obtain ⟨own, kept, same⟩ := kept_of_stringRest read
    exact ⟨own, kept, by simp [same]⟩
  · rintro ⟨chars, string, rfl⟩
    have bounded := string.length_lt fun _ _ _ => escaped_shorter
    have read := string.stringRest [] ((text.drop 1).length + 1) (by omega)
    exact ⟨(chars, rest), _, ⟨read, rfl⟩, (), _, rfl, rfl, rfl⟩

end ContinuousBatching.Json
