/-
**Members and elements in a text.**

An object has members with names and an array has elements; commas separate both. Here is what may
be written between the brackets, the values being left open, and what the readers for commas, names
and brackets take.

* `Members`, `Elements`: the grammar of both, elements standing for members with given names;
* `Members.map_iff`, `Elements.map_iff`: the same members with other values;
* `mark_eq_ok_iff`, `named_iff`, `nextMember_true_iff`, `nextElement_true_iff`: the readers;
* `read_eq_ok_iff`: a whole text.
-/

import ContinuousBatching.Proofs.Json.Numeral
import ContinuousBatching.Proofs.Json.Values

namespace ContinuousBatching.Json

variable {α β : Type} {text rest : List Char} {first : Bool}

/-! ### Separators and names -/

/-- A comma stands in front of every element but the first. -/
def Separated (first : Bool) (text start : List Char) : Prop :=
  if first then text = start else afterBlanks text = ',' :: start

/-- The name of a member and its colon. -/
def Named (text : List Char) (name : String) (rest : List Char) : Prop :=
  ∃ opened chars behind, afterBlanks text = '"' :: opened ∧ Kept opened chars behind ∧
    String.ofList chars = name ∧ afterBlanks behind = ':' :: rest

/-- The members of an object behind its brace, up to and with the closing one: names and what
`reads` takes for their values. -/
inductive Members (reads : String → List Char → β → List Char → Prop) :
    Bool → List Char → List (String × β) → List Char → Prop
  | close {first : Bool} {text rest : List Char} (closed : afterBlanks text = '}' :: rest) :
      Members reads first text [] rest
  | next {first : Bool} {name : String} {value : β} {members : List (String × β)}
      {text start begun behind rest : List Char} (separated : Separated first text start)
      (named : Named start name begun) (taken : reads name begun value behind)
      (later : Members reads false behind members rest) :
      Members reads first text ((name, value) :: members) rest

/-- The elements of an array behind its bracket, up to and with the closing one. They stand for
members with the names that are given, in this order; the last ones may be missing. -/
inductive Elements (reads : String → List Char → β → List Char → Prop) :
    List String → Bool → List Char → List (String × β) → List Char → Prop
  | close {names : List String} {first : Bool} {text rest : List Char}
      (closed : afterBlanks text = ']' :: rest) : Elements reads names first text [] rest
  | next {name : String} {names : List String} {first : Bool} {value : β}
      {members : List (String × β)} {text start behind rest : List Char}
      (separated : Separated first text start)
      (opens : ∃ c more, afterBlanks start = c :: more ∧ c ≠ ']')
      (taken : reads name (afterBlanks start) value behind)
      (later : Elements reads names false behind members rest) :
      Elements reads (name :: names) first text ((name, value) :: members) rest

/-- The names of the members that are not passed over. -/
def given (members : List (String × Option β)) : List String :=
  members.filterMap fun member => member.2.map fun _ => member.1

/-! ### Members and what they say -/

section Values

variable {γ : Type} {reads : String → List Char → β → List Char → Prop}
  {tells : String → List Char → γ → List Char → Prop} {f : String → γ → β}

/-- Where values are read as functions of what others say, so are members. -/
theorem Members.map_iff
    (same : ∀ name text value rest, reads name text value rest ↔
      ∃ said, tells name text said rest ∧ value = f name said) {members : List (String × β)} :
    Members reads first text members rest ↔ ∃ said, Members tells first text said rest ∧
      members = said.map fun member => (member.1, f member.1 member.2) := by
  constructor
  · intro written
    induction written with
    | close closed => exact ⟨[], .close closed, rfl⟩
    | next separated named taken _ ih =>
        obtain ⟨said, later, rfl⟩ := ih
        obtain ⟨one, told, rfl⟩ := (same _ _ _ _).mp taken
        exact ⟨(_, one) :: said, .next separated named told later, rfl⟩
  · rintro ⟨said, written, rfl⟩
    induction written with
    | close closed => exact .close closed
    | next separated named taken _ ih =>
        exact .next separated named ((same _ _ _ _).mpr ⟨_, taken, rfl⟩) ih

theorem Elements.map_iff
    (same : ∀ name text value rest, reads name text value rest ↔
      ∃ said, tells name text said rest ∧ value = f name said) {names : List String}
    {members : List (String × β)} :
    Elements reads names first text members rest ↔
      ∃ said, Elements tells names first text said rest ∧
        members = said.map fun member => (member.1, f member.1 member.2) := by
  constructor
  · intro written
    induction written with
    | close closed => exact ⟨[], .close closed, rfl⟩
    | next separated opens taken _ ih =>
        obtain ⟨said, later, rfl⟩ := ih
        obtain ⟨one, told, rfl⟩ := (same _ _ _ _).mp taken
        exact ⟨(_, one) :: said, .next separated opens told later, rfl⟩
  · rintro ⟨said, written, rfl⟩
    induction written with
    | close closed => exact .close closed
    | next separated opens taken _ ih =>
        exact .next separated opens ((same _ _ _ _).mpr ⟨_, taken, rfl⟩) ih

/-- The elements of an array come in the order of the names. -/
theorem Elements.names {names : List String} {members : List (String × γ)}
    (written : Elements tells names first text members rest) :
    members.map Prod.fst <+: names := by
  induction written with
  | close => exact List.nil_prefix
  | next _ _ _ _ ih => exact (List.prefix_cons_inj _).mpr ih

theorem given_map (f : String → β → γ) (members : List (String × Option β)) :
    given (members.map fun member => (member.1, member.2.map (f member.1))) = given members := by
  rw [given, given, List.filterMap_map]
  refine List.filterMap_congr fun member _ => ?_
  obtain ⟨name, _ | value⟩ := member <;> rfl

theorem mem_given_iff {name : String} {members : List (String × Option β)} :
    name ∈ given members ↔ ∃ value, (name, some value) ∈ members := by
  simp [given]

theorem given_sublist (members : List (String × Option β)) :
    List.Sublist (given members) (members.map Prod.fst) := by
  induction members with
  | nil => exact .slnil
  | cons member members ih =>
      obtain ⟨name, _ | value⟩ := member
      · exact .cons _ ih
      · exact .cons_cons _ ih

/-- Every member has a value that was read. -/
theorem Members.read_of_mem {members : List (String × β)}
    (written : Members reads first text members rest) :
    ∀ member ∈ members, ∃ text rest, reads member.1 text member.2 rest := by
  induction written with
  | close => exact fun _ member => (by cases member)
  | next _ _ taken _ ih => exact List.forall_mem_cons.mpr ⟨⟨_, _, taken⟩, ih⟩

theorem Elements.read_of_mem {names : List String} {members : List (String × β)}
    (written : Elements reads names first text members rest) :
    ∀ member ∈ members, ∃ text rest, reads member.1 text member.2 rest := by
  induction written with
  | close => exact fun _ member => (by cases member)
  | next _ _ taken _ ih => exact List.forall_mem_cons.mpr ⟨⟨_, _, taken⟩, ih⟩

end Values

theorem Separated.shorter {start : List Char} (separated : Separated first text start) :
    start.length ≤ text.length := by
  cases first with
  | true => exact Nat.le_of_eq (congrArg List.length (Eq.symm separated))
  | false =>
      have comma : afterBlanks text = ',' :: start := separated
      have blank := length_afterBlanks_le text
      rw [comma, List.length_cons] at blank
      omega

theorem Named.shorter {name : String} (named : Named text name rest) :
    rest.length < text.length := by
  obtain ⟨opened, chars, behind, begins, kept, _, colon⟩ := named
  have outer := length_afterBlanks_le text
  have inner := length_afterBlanks_le behind
  have bounded := kept.length_lt fun _ _ _ => escaped_shorter
  rw [begins, List.length_cons] at outer
  rw [colon, List.length_cons] at inner
  omega

/-- Every member takes at least a character off the text. -/
theorem Members.length_lt {reads : String → List Char → β → List Char → Prop}
    (shorter : ∀ {name text value rest}, reads name text value rest → rest.length ≤ text.length)
    {members : List (String × β)} (written : Members reads first text members rest) :
    members.length < text.length := by
  induction written with
  | @close _ text _ closed =>
      have blank := length_afterBlanks_le text
      rw [closed, List.length_cons] at blank
      exact Nat.lt_of_lt_of_le (Nat.succ_pos _) blank
  | next separated named taken _ ih =>
      have first := separated.shorter
      have second := named.shorter
      have third := shorter taken
      rw [List.length_cons]
      omega

/-! ### The readers -/

theorem mark_eq_ok_iff {c : Char} {value : Unit} :
    mark c text = .ok (value, rest) ↔ afterBlanks text = c :: rest := by
  unfold mark
  rw [skipBlanks_bind, get_bind]
  cases afterBlanks text with
  | nil => simp
  | cons d more =>
      by_cases same : d = c
      · simp [same]
      · simp [same]

/-- The name of a member as its readers take it. -/
theorem named_iff {name : String} : Named text name rest ↔
    ∃ opened behind, afterBlanks text = '"' :: opened ∧
      quoted ('"' :: opened) = .ok (name, behind) ∧ mark ':' behind = .ok ((), rest) := by
  constructor
  · rintro ⟨opened, chars, behind, begins, kept, same, colon⟩
    exact ⟨opened, behind, begins, quoted_eq_ok_iff.mpr ⟨chars, kept, same⟩,
      mark_eq_ok_iff.mpr colon⟩
  · rintro ⟨opened, behind, begins, read, colon⟩
    obtain ⟨chars, kept, same⟩ := quoted_eq_ok_iff.mp read
    exact ⟨opened, chars, behind, begins, kept, same, mark_eq_ok_iff.mp colon⟩

variable {closing : Char} {opens : Char → Bool}

/-- Either the end is there, or something that may follow. -/
theorem another_cases {more : Bool} (read : another closing opens first text = .ok (more, rest)) :
    (more = false ∧ afterBlanks text = rest ∧ ∃ late, rest = closing :: late) ∨
    (more = true ∧ ∃ start c late, Separated first text start ∧ afterBlanks start = c :: late ∧
      opens c ∧ rest = c :: late) := by
  unfold another at read
  rw [skipBlanks_bind, get_bind] at read
  cases blanks : afterBlanks text with
  | nil =>
      rw [blanks] at read
      exact absurd read throw_ne_ok
  | cons c late =>
      rw [blanks] at read
      dsimp only at read
      split_ifs at read with closed one opening separator
      · obtain ⟨rfl, rfl⟩ := pure_eq_ok.mp read
        obtain rfl := closed
        exact Or.inl ⟨rfl, rfl, late, rfl⟩
      · obtain ⟨rfl, rfl⟩ := pure_eq_ok.mp read
        obtain rfl := one
        exact Or.inr ⟨rfl, text, c, late, rfl, blanks, opening, rfl⟩
      · exact absurd read throw_ne_ok
      · obtain ⟨_, _, set, onwards⟩ := bind_eq_ok.mp read
        obtain rfl := set_eq_ok.mp set
        obtain rfl := separator
        cases behind : afterBlanks late with
        | nil =>
            rw [behind] at onwards
            exact absurd onwards throw_ne_ok
        | cons d later =>
            rw [behind] at onwards
            dsimp only at onwards
            split_ifs at onwards with opening
            · obtain ⟨rfl, rfl⟩ := pure_eq_ok.mp onwards
              have separated : Separated first text late := by simp [Separated, one, blanks]
              exact Or.inr ⟨rfl, late, d, later, separated, behind, opening, rfl⟩
            · exact absurd onwards throw_ne_ok
      · exact absurd read throw_ne_ok

theorem another_true_iff (comma : closing ≠ ',') (other : opens closing = false) :
    another closing opens first text = .ok (true, rest) ↔
      ∃ start c late, Separated first text start ∧ afterBlanks start = c :: late ∧ opens c ∧
        rest = c :: late := by
  constructor
  · intro read
    rcases another_cases read with ⟨same, _⟩ | ⟨_, goesOn⟩
    · cases same
    · exact goesOn
  · rintro ⟨start, c, late, separated, begins, opening, rfl⟩
    unfold another
    rw [skipBlanks_bind, get_bind]
    cases first with
    | true =>
        cases separated
        have goesOn : c ≠ closing := by
          rintro rfl
          rw [other] at opening
          cases opening
        simp [begins, goesOn, opening]
    | false =>
        have separator : afterBlanks text = ',' :: start := separated
        simp [separator, comma.symm, begins, opening]

theorem another_false_iff : another closing opens first text = .ok (false, rest) ↔
    afterBlanks text = rest ∧ ∃ late, rest = closing :: late := by
  constructor
  · intro read
    rcases another_cases read with ⟨_, ends⟩ | ⟨same, _⟩
    · exact ends
    · cases same
  · rintro ⟨rfl, late, closed⟩
    unfold another
    rw [skipBlanks_bind, get_bind]
    simp [closed]

theorem nextMember_true_iff : nextMember first text = .ok (true, rest) ↔
    ∃ start opened, Separated first text start ∧ afterBlanks start = '"' :: opened ∧
      rest = '"' :: opened := by
  unfold nextMember
  rw [another_true_iff (by decide) (by decide)]
  constructor
  · rintro ⟨start, c, more, separated, begins, mark, rfl⟩
    obtain rfl := of_decide_eq_true mark
    exact ⟨start, more, separated, begins, rfl⟩
  · rintro ⟨start, opened, separated, begins, rfl⟩
    exact ⟨start, _, opened, separated, begins, by decide, rfl⟩

theorem nextElement_true_iff : nextElement first text = .ok (true, rest) ↔
    ∃ start, Separated first text start ∧ (∃ c more, afterBlanks start = c :: more ∧ c ≠ ']') ∧
      rest = afterBlanks start := by
  unfold nextElement
  rw [another_true_iff (by decide) (by decide)]
  constructor
  · rintro ⟨start, c, more, separated, begins, goesOn, rfl⟩
    exact ⟨start, separated, ⟨c, more, begins, of_decide_eq_true goesOn⟩, begins.symm⟩
  · rintro ⟨start, separated, ⟨c, more, begins, goesOn⟩, rfl⟩
    exact ⟨start, c, more, separated, begins, decide_eq_true goesOn, begins⟩

/-- A whole text is read where nothing but blanks is behind the value. -/
theorem read_eq_ok_iff {reader : Reader α} {text : String} {value : α} :
    read reader text = .ok value ↔
      ∃ rest, reader text.toList = .ok (value, rest) ∧ afterBlanks rest = [] := by
  unfold read
  rw [bind_eq_ok_iff]
  constructor
  · rintro ⟨⟨found, rest⟩, taken, done⟩
    have done : (if (afterBlanks rest).isEmpty then .ok found else .error .illFormed :
      Except Malformed α) = .ok value := done
    split_ifs at done with empty
    cases done
    exact ⟨rest, taken, List.isEmpty_iff.mp empty⟩
  · rintro ⟨rest, taken, empty⟩
    exact ⟨(value, rest), taken, if_pos (List.isEmpty_iff.mpr empty)⟩

end ContinuousBatching.Json
