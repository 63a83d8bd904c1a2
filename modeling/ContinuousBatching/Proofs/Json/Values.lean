/-
**Values that nobody keeps.**

`skipValue` passes over a value with a list of the frames that are open. Here is the grammar of what
it passes over, in which values are nested: a word, a string, a number, or an array or object of
values (`Value`, with `Tail` for what follows a value in its frame).

* `due_of_afterFrames`: whatever is passed over is a value, and the frames around it are closed;
* `Value.spends`: every value is passed over, in no more rounds than it has characters;
* `skipValue_eq_ok_iff`: both together.
-/

import ContinuousBatching.Proofs.Json.Reader

namespace ContinuousBatching.Json

namespace Frame

/-- The character that opens a frame. -/
def opening : Frame → Char
  | array => '['
  | object => '{'

/-- The character that closes it. -/
def closing : Frame → Char
  | array => ']'
  | object => '}'

/-- What stands in front of a value in a frame: in an object its name and a colon. -/
def Lead (frame : Frame) (text rest : List Char) : Prop :=
  match frame with
  | array => text = rest
  | object => ∃ name behind, afterBlanks text = '"' :: name ∧ Passed name behind ∧
      afterBlanks behind = ':' :: rest

end Frame

mutual

/-- The text begins with a value, and `rest` is behind it. -/
inductive Value : List Char → List Char → Prop
  | word {name : String} {rest : List Char} (known : name ∈ ["null", "true", "false"]) :
      Value (name.toList ++ rest) rest
  | string {text rest : List Char} (passed : Passed text rest) : Value ('"' :: text) rest
  | number {c : Char} {text rest : List Char} (digit : c.isDigit)
      (read : afterNumber (c :: text) = .ok rest) : Value (c :: text) rest
  | negative {text rest : List Char} (read : afterNumber text = .ok rest) : Value ('-' :: text) rest
  | empty {frame : Frame} {text rest : List Char}
      (closed : afterBlanks text = frame.closing :: rest) : Value (frame.opening :: text) rest
  | nested {frame : Frame} {text start behind rest : List Char} (lead : frame.Lead text start)
      (first : Value (afterBlanks start) behind) (tail : Tail frame behind rest) :
      Value (frame.opening :: text) rest

/-- What follows a value in a frame, up to the end of the frame. -/
inductive Tail : Frame → List Char → List Char → Prop
  | close {frame : Frame} {text rest : List Char}
      (closed : afterBlanks text = frame.closing :: rest) : Tail frame text rest
  | next {frame : Frame} {text more start behind rest : List Char}
      (comma : afterBlanks text = ',' :: more) (lead : frame.Lead more start)
      (value : Value (afterBlanks start) behind) (tail : Tail frame behind rest) :
      Tail frame text rest

end

/-- The frames are closed one after another. -/
def Closes : List Frame → List Char → List Char → Prop
  | [], text, rest => text = rest
  | frame :: outer, text, rest => ∃ mid, Tail frame text mid ∧ Closes outer mid rest

variable {text rest : List Char}

/-- A value has to be read before its frames are closed. -/
def Due (pending : Bool) (frames : List Frame) (text rest : List Char) : Prop :=
  if pending then ∃ mid, Value (afterBlanks text) mid ∧ Closes frames mid rest
  else Closes frames text rest

theorem afterName_eq_ok_iff : afterName text = .ok rest ↔ Frame.object.Lead text rest := by
  unfold afterName Frame.Lead
  constructor
  · intro read
    split at read
    · cases read
    · rename_i name quoted
      obtain ⟨behind, passed, read⟩ := bind_eq_ok_iff.mp read
      split at read
      · cases read
      · rename_i colon
        cases read
        exact ⟨name, behind, quoted, afterString_eq_ok_iff.mp passed, colon⟩
      · cases read
    · cases read
  · rintro ⟨name, behind, quoted, passed, colon⟩
    rw [quoted]
    refine bind_eq_ok_iff.mpr ⟨behind, afterString_eq_ok_iff.mpr passed, ?_⟩
    simp [colon]

theorem due_of_afterFrames {rounds : Nat} {pending : Bool} {frames : List Frame}
    (read : afterFrames rounds pending frames text = .ok rest) : Due pending frames text rest := by
  fun_induction afterFrames rounds pending frames text with
  | case1 => cases read
  | case2 =>
      cases read
      rfl
  | case3 => cases read
  | case4 rounds outer text more comma ih =>
      obtain ⟨mid, value, behind, tail, outer⟩ := ih read
      exact ⟨behind, .next comma rfl value tail, outer⟩
  | case5 rounds outer text more comma ih =>
      obtain ⟨start, lead, read⟩ := bind_eq_ok_iff.mp read
      obtain ⟨mid, value, behind, tail, outer⟩ := ih start read
      exact ⟨behind, .next comma (afterName_eq_ok_iff.mp lead) value tail, outer⟩
  | case6 rounds outer text more closed ih => exact ⟨more, .close closed, ih read⟩
  | case7 rounds outer text more closed ih => exact ⟨more, .close closed, ih read⟩
  | case8 => cases read
  | case9 => cases read
  | case10 rounds frames text more letter ih =>
      obtain ⟨behind, word, read⟩ := bind_eq_ok_iff.mp read
      refine ⟨behind, ?_, ih behind read⟩
      rw [letter, afterWord_eq_ok_iff.mp word]
      exact @Value.word "null" _ (by decide)
  | case11 rounds frames text more letter ih =>
      obtain ⟨behind, word, read⟩ := bind_eq_ok_iff.mp read
      refine ⟨behind, ?_, ih behind read⟩
      rw [letter, afterWord_eq_ok_iff.mp word]
      exact @Value.word "true" _ (by decide)
  | case12 rounds frames text more letter ih =>
      obtain ⟨behind, word, read⟩ := bind_eq_ok_iff.mp read
      refine ⟨behind, ?_, ih behind read⟩
      rw [letter, afterWord_eq_ok_iff.mp word]
      exact @Value.word "false" _ (by decide)
  | case13 rounds frames text more mark ih =>
      obtain ⟨behind, string, read⟩ := bind_eq_ok_iff.mp read
      refine ⟨behind, ?_, ih behind read⟩
      rw [mark]
      exact .string (afterString_eq_ok_iff.mp string)
  | case14 rounds frames text more sign ih =>
      obtain ⟨behind, number, read⟩ := bind_eq_ok_iff.mp read
      refine ⟨behind, ?_, ih behind read⟩
      rw [sign]
      exact .negative number
  | case15 rounds frames text more opened behind closed ih =>
      refine ⟨behind, ?_, ih read⟩
      rw [opened]
      exact @Value.empty .array _ _ closed
  | case16 rounds frames text more opened _ ih =>
      obtain ⟨mid, value, behind, tail, outer⟩ := ih read
      rw [afterBlanks_afterBlanks] at value
      refine ⟨behind, ?_, outer⟩
      rw [opened]
      exact @Value.nested .array _ _ _ _ rfl value tail
  | case17 rounds frames text more opened behind closed ih =>
      refine ⟨behind, ?_, ih read⟩
      rw [opened]
      exact @Value.empty .object _ _ closed
  | case18 rounds frames text more opened _ ih =>
      obtain ⟨start, lead, read⟩ := bind_eq_ok_iff.mp read
      obtain ⟨mid, value, behind, tail, outer⟩ := ih start read
      refine ⟨behind, ?_, outer⟩
      rw [opened]
      have lead := afterName_eq_ok_iff.mp lead
      simp only [Frame.Lead, afterBlanks_afterBlanks] at lead
      exact @Value.nested .object _ _ _ _ lead value tail
  | case19 rounds frames text c more _ _ _ _ _ _ _ first digit ih =>
      obtain ⟨behind, number, read⟩ := bind_eq_ok_iff.mp read
      refine ⟨behind, ?_, ih behind read⟩
      rw [first]
      exact .number digit number
  | case20 => cases read

theorem afterDigits_shorter (read : afterDigits text = .ok rest) : rest.length < text.length := by
  unfold afterDigits at read
  split at read
  · split at read
    · cases read
      exact Nat.lt_succ_of_le (List.dropWhile_suffix _).length_le
    · cases read
  · cases read

theorem afterNumber_shorter (read : afterNumber text = .ok rest) : rest.length < text.length := by
  obtain ⟨whole, digits, read⟩ := bind_eq_ok_iff.mp read
  obtain ⟨fraction, places, exponent⟩ := bind_eq_ok_iff.mp read
  have first : whole.length < text.length := by
    unfold afterWhole at digits
    split at digits
    · split at digits
      · cases digits
      · cases digits
        exact Nat.lt_succ_self _
    · exact afterDigits_shorter digits
  have second : fraction.length ≤ whole.length := by
    unfold afterFraction at places
    split at places
    · exact Nat.le_succ_of_le (Nat.le_of_lt (afterDigits_shorter places))
    · cases places
      exact Nat.le_refl _
  have third : rest.length ≤ fraction.length := by
    unfold afterExponent at exponent
    split at exponent
    · split at exponent
      · split at exponent <;>
        · have shorter := afterDigits_shorter exponent
          simp only [List.length_cons]
          omega
      · cases exponent
        exact Nat.le_refl _
    · cases exponent
      exact Nat.le_refl _
  omega

theorem Passed.shorter (passed : Passed text rest) : rest.length < text.length := by
  obtain ⟨chars, string⟩ := passed
  have bounded := string.length_lt fun _ _ _ => afterEscape_shorter
  omega

/-- Blanks in front of a value make no difference. -/
theorem afterFrames_afterBlanks (rounds : Nat) (frames : List Frame) (text : List Char) :
    afterFrames (rounds + 1) true frames (afterBlanks text) =
      afterFrames (rounds + 1) true frames text := by
  rw [afterFrames, afterFrames, afterBlanks_afterBlanks]

/-- No value begins with what closes an array. -/
theorem Value.first_ne (value : Value text rest) : ∀ more, text ≠ ']' :: more := by
  intro more
  cases value with
  | word known =>
      simp only [List.mem_cons, List.not_mem_nil, or_false] at known
      obtain rfl | rfl | rfl := known <;> simp
  | string passed => simp
  | number digit read =>
      rintro ⟨⟩
      exact absurd digit (by decide)
  | negative read => simp
  | @empty frame _ _ closed => cases frame <;> simp [Frame.opening]
  | @nested frame _ _ _ _ lead first tail => cases frame <;> simp [Frame.opening]

theorem frames_word {name : String} (known : name ∈ ["null", "true", "false"]) (rounds : Nat)
    (frames : List Frame) (rest : List Char) :
    afterFrames (rounds + 1) true frames (name.toList ++ rest) =
      afterFrames rounds false frames rest := by
  simp only [List.mem_cons, List.not_mem_nil, or_false] at known
  obtain rfl | rfl | rfl := known
  · show (afterWord "ull".toList ("ull".toList ++ rest) >>= fun text => _) = _
    rw [afterWord_eq_ok_iff.mpr rfl]
    rfl
  · show (afterWord "rue".toList ("rue".toList ++ rest) >>= fun text => _) = _
    rw [afterWord_eq_ok_iff.mpr rfl]
    rfl
  · show (afterWord "alse".toList ("alse".toList ++ rest) >>= fun text => _) = _
    rw [afterWord_eq_ok_iff.mpr rfl]
    rfl

theorem frames_string (passed : Passed text rest) (rounds : Nat) (frames : List Frame) :
    afterFrames (rounds + 1) true frames ('"' :: text) = afterFrames rounds false frames rest := by
  show (afterString (text.length + 1) text >>= fun text => _) = _
  rw [afterString_eq_ok_iff.mpr passed]
  rfl

theorem frames_negative (read : afterNumber text = .ok rest) (rounds : Nat) (frames : List Frame) :
    afterFrames (rounds + 1) true frames ('-' :: text) = afterFrames rounds false frames rest := by
  show (afterNumber text >>= fun text => _) = _
  rw [read]
  rfl

/-- A digit is no blank. -/
theorem afterBlanks_digit {c : Char} (digit : c.isDigit) : afterBlanks (c :: text) = c :: text := by
  have visible : isBlank c = false := by
    by_contra blank
    simp only [isBlank, Bool.not_eq_false, Bool.or_eq_true, decide_eq_true_eq] at blank
    obtain ((rfl | rfl) | rfl) | rfl := blank <;> exact absurd digit (by decide)
  simp [afterBlanks, visible]

theorem frames_number {c : Char} (digit : c.isDigit) (read : afterNumber (c :: text) = .ok rest)
    (rounds : Nat) (frames : List Frame) :
    afterFrames (rounds + 1) true frames (c :: text) = afterFrames rounds false frames rest := by
  rw [afterFrames, afterBlanks_digit digit]
  split
  · rename_i same
    cases same
  -- none of the seven other characters that a value begins with is a digit
  iterate 7
    · rename_i same
      cases same
      exact absurd digit (by decide)
  · rename_i same
    cases same
    rw [if_pos digit, read]
    rfl

theorem afterBlanks_opening (frame : Frame) (text : List Char) :
    afterBlanks (frame.opening :: text) = frame.opening :: text := by
  cases frame <;> rfl

theorem frames_empty {frame : Frame} (closed : afterBlanks text = frame.closing :: rest)
    (rounds : Nat) (frames : List Frame) :
    afterFrames (rounds + 1) true frames (frame.opening :: text) =
      afterFrames rounds false frames rest := by
  rw [afterFrames, afterBlanks_opening]
  cases frame with
  | array => simp [Frame.opening, closed, Frame.closing]
  | object => simp [Frame.opening, closed, Frame.closing]

theorem frames_nested {frame : Frame} {text start behind : List Char}
    (lead : frame.Lead text start) (first : Value (afterBlanks start) behind) (rounds : Nat)
    (frames : List Frame) :
    afterFrames (rounds + 2) true frames (frame.opening :: text) =
      afterFrames (rounds + 1) true (frame :: frames) start := by
  rw [afterFrames, afterBlanks_opening]
  cases frame with
  | array =>
      cases lead
      simp only [Frame.opening]
      split
      · rename_i more closed
        exact absurd closed (first.first_ne more)
      · exact afterFrames_afterBlanks _ _ _
  | object =>
      obtain ⟨name, behind, quoted, passed, colon⟩ := lead
      have named : afterName (afterBlanks text) = .ok start :=
        afterName_eq_ok_iff.mpr ⟨name, behind, (by rw [quoted]; rfl), passed, colon⟩
      simp only [Frame.opening]
      rw [quoted] at named ⊢
      simp [named]
      rfl

theorem Frame.Lead.shorter {frame : Frame} (lead : frame.Lead text rest) :
    rest.length ≤ text.length := by
  cases frame with
  | array => exact Nat.le_of_eq (congrArg List.length (Eq.symm lead))
  | object =>
      obtain ⟨name, behind, quoted, passed, colon⟩ := lead
      have opened := length_afterBlanks_le text
      have closed := length_afterBlanks_le behind
      have within := passed.shorter
      rw [quoted, List.length_cons] at opened
      rw [colon, List.length_cons] at closed
      omega

theorem frames_close {frame : Frame} (closed : afterBlanks text = frame.closing :: rest)
    (rounds : Nat) (frames : List Frame) :
    afterFrames (rounds + 1) false (frame :: frames) text =
      afterFrames rounds false frames rest := by
  cases frame <;> simp only [afterFrames, closed, Frame.closing]

theorem frames_next {frame : Frame} {more start : List Char}
    (comma : afterBlanks text = ',' :: more) (lead : frame.Lead more start) (rounds : Nat)
    (frames : List Frame) :
    afterFrames (rounds + 1) false (frame :: frames) text =
      afterFrames rounds true (frame :: frames) start := by
  cases frame with
  | array =>
      cases lead
      simp only [afterFrames, comma]
  | object =>
      simp only [afterFrames, comma]
      rw [afterName_eq_ok_iff.mpr lead]
      rfl

/-- A run that uses up a round for some of the characters between `text` and `rest`, and then goes
on behind them. -/
def Spends (text rest : List Char) (run : Nat → List Frame → Except Malformed (List Char)) : Prop :=
  ∃ cost, cost + 1 + rest.length ≤ text.length ∧ ∀ rounds frames,
    run (rounds + (cost + 1)) frames = afterFrames rounds false frames rest

/-- One round is enough for a value that nothing is nested in. -/
theorem Spends.once {start : List Char} (blanks : afterBlanks text = start)
    (shorter : rest.length < start.length)
    (round : ∀ rounds frames,
      afterFrames (rounds + 1) true frames start = afterFrames rounds false frames rest) :
    Spends text rest fun rounds frames => afterFrames rounds true frames text := by
  have blank := length_afterBlanks_le text
  rw [blanks] at blank
  refine ⟨0, by omega, fun rounds frames => ?_⟩
  rw [← round rounds frames, ← blanks]
  exact (afterFrames_afterBlanks rounds frames text).symm

mutual

/-- A value takes no more rounds than it has characters. -/
theorem Value.spends {text start rest : List Char} (value : Value start rest)
    (blanks : afterBlanks text = start) :
    Spends text rest fun rounds frames => afterFrames rounds true frames text := by
  match value with
  | .word known =>
      have filled : ∀ name ∈ ["null", "true", "false"], 0 < name.toList.length := by decide
      refine .once blanks ?_ fun rounds frames => frames_word known rounds frames rest
      rw [List.length_append]
      exact Nat.lt_add_of_pos_left (filled _ known)
  | .string passed =>
      exact .once blanks (Nat.lt_succ_of_lt passed.shorter) (frames_string passed)
  | .number digit read =>
      exact .once blanks (afterNumber_shorter read) (frames_number digit read)
  | .negative read =>
      exact .once blanks (Nat.lt_succ_of_lt (afterNumber_shorter read)) (frames_negative read)
  | @Value.empty _ inner _ closed =>
      have blank := length_afterBlanks_le inner
      rw [closed] at blank
      exact .once blanks (Nat.lt_succ_of_lt blank) (frames_empty closed)
  | @Value.nested _ inner begun _ _ lead first tail =>
      obtain ⟨cost, within, run⟩ := first.spends rfl
      obtain ⟨later, within', run'⟩ := tail.spends
      have blank := length_afterBlanks_le text
      have shorter := lead.shorter
      rw [blanks, List.length_cons] at blank
      refine ⟨cost + later + 2, by omega, fun rounds frames => ?_⟩
      -- one round opens the frame, then come those of the first value and those of the others
      have opened := frames_nested lead first (rounds + (later + 1) + cost) frames
      calc afterFrames (rounds + (cost + later + 2 + 1)) true frames text
          = afterFrames (rounds + (later + 1) + cost + 2) true frames text := by
            congr 1
            omega
        _ = afterFrames (rounds + (later + 1) + (cost + 1)) true (_ :: frames) begun := by
            rw [← afterFrames_afterBlanks, blanks, opened]
            rfl
        _ = afterFrames (rounds + (later + 1)) false (_ :: frames) _ := run _ _
        _ = afterFrames rounds false frames rest := run' rounds frames

/-- So does what follows a value in a frame. -/
theorem Tail.spends {frame : Frame} {text rest : List Char} (tail : Tail frame text rest) :
    Spends text rest fun rounds frames => afterFrames rounds false (frame :: frames) text := by
  have blank := length_afterBlanks_le text
  match tail with
  | .close closed =>
      rw [closed, List.length_cons] at blank
      exact ⟨0, by omega, fun rounds frames => frames_close closed rounds frames⟩
  | @Tail.next _ _ more begun _ _ comma lead value others =>
      obtain ⟨cost, within, run⟩ := value.spends rfl
      obtain ⟨later, within', run'⟩ := others.spends
      have shorter := lead.shorter
      rw [comma, List.length_cons] at blank
      refine ⟨cost + later + 2, by omega, fun rounds frames => ?_⟩
      calc afterFrames (rounds + (cost + later + 2 + 1)) false (frame :: frames) text
          = afterFrames (rounds + (later + 1) + (cost + 1) + 1) false (frame :: frames) text := by
            congr 1
            omega
        _ = afterFrames (rounds + (later + 1) + (cost + 1)) true (frame :: frames) begun :=
            frames_next comma lead _ frames
        _ = afterFrames (rounds + (later + 1)) false (frame :: frames) _ := run _ _
        _ = afterFrames rounds false frames rest := run' rounds frames

end

theorem Value.shorter {text rest : List Char} (value : Value (afterBlanks text) rest) :
    rest.length < text.length := by
  obtain ⟨cost, within, _⟩ := value.spends rfl
  omega

/-- **What is passed over** is a value, of any shape and any depth. -/
theorem skipValue_eq_ok_iff {value : Unit} :
    skipValue text = .ok (value, rest) ↔ Value (afterBlanks text) rest := by
  unfold skipValue
  rw [get_bind]
  simp only [bind_eq_ok, liftM_eq_ok, set_eq_ok]
  constructor
  · rintro ⟨_, _, ⟨read, -⟩, rfl⟩
    obtain ⟨mid, value, rfl⟩ := due_of_afterFrames read
    exact value
  · intro value
    obtain ⟨cost, within, run⟩ := value.spends rfl
    have enough : 2 * text.length + 2 = (2 * text.length - cost + 1) + (cost + 1) := by omega
    refine ⟨rest, text, ⟨?_, rfl⟩, rfl⟩
    rw [enough]
    exact run _ []

end ContinuousBatching.Json
