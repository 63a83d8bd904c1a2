/-
**Records in a text.**

A record is written as an object, whose members may stand in any order and have any other members
between them, or as an array of its fields in their order. It is read exactly where it is written.

* `Shape.Reads`, `Shape.Fills`: what a member does to a record, and what all of them make of it, no
  field being given twice;
* `Shape.filled_of_members`, `Members.read`: the members of an object;
* `Shape.positions_iff`: the elements of an array;
* `Shape.record_eq_ok_iff`: **the whole record**.
-/

import ContinuousBatching.Proofs.Json.Members

namespace ContinuousBatching.Json

variable {σ : Type} {text rest : List Char} {first : Bool} {shape : Shape σ}

/-! ### Members -/

/-- What the value of a member does to a record: it changes the field with its name, or is passed
over. -/
def Shape.Reads (shape : Shape σ) (name : String) (text : List Char) (change? : Option (σ → σ))
    (rest : List Char) : Prop :=
  match shape.fields.find? fun field => field.name = name with
  | some field => ∃ change, change? = some change ∧ field.read text = .ok (change, rest)
  | none => shape.closed = false ∧ change? = none ∧ Value (afterBlanks text) rest

section Reads

variable {name : String} {change? : Option (σ → σ)} {field : Field σ}

theorem Shape.reads_of_found
    (found : (shape.fields.find? fun field => field.name = name) = some field) :
    shape.Reads name text change? rest ↔
      ∃ change, change? = some change ∧ field.read text = .ok (change, rest) := by
  rw [Reads, found]

theorem Shape.reads_of_unknown
    (unknown : (shape.fields.find? fun field => field.name = name) = none) :
    shape.Reads name text change? rest ↔
      shape.closed = false ∧ change? = none ∧ Value (afterBlanks text) rest := by
  rw [Reads, unknown]

end Reads

/-- The record after all its members, no field of which is given twice. Some fields were given
before. -/
structure Shape.Fills (shape : Shape σ) (seen : List String) (value : σ)
    (members : List (String × Option (σ → σ))) (result : σ) : Prop where
  once : (given members).Nodup
  fresh : ∀ name ∈ given members, name ∉ seen
  complete : shape.lenient = true ∨
    ∀ field ∈ shape.fields, field.name ∈ seen ∨ field.name ∈ given members
  result : members.foldl (fun value member => member.2.getD id value) value = result

namespace Shape.Fills

variable {seen : List String} {name : String} {value result : σ}
  {members : List (String × Option (σ → σ))}

theorem nil_iff : shape.Fills seen value [] result ↔
    (shape.lenient = true ∨ ∀ field ∈ shape.fields, field.name ∈ seen) ∧ value = result := by
  constructor
  · intro fills
    have complete := fills.complete
    simp only [given, List.filterMap_nil, List.not_mem_nil, or_false] at complete
    exact ⟨complete, fills.result⟩
  · rintro ⟨complete, rfl⟩
    exact ⟨List.nodup_nil, fun _ member => (by cases member),
      complete.imp_right fun all field member => Or.inl (all field member), rfl⟩

/-- A member that changes a field, which was not given before. -/
theorem cons_some_iff {change : σ → σ} :
    shape.Fills seen value ((name, some change) :: members) result ↔
      name ∉ seen ∧ shape.Fills (name :: seen) (change value) members result := by
  have cons : given ((name, some change) :: members) = name :: given members := rfl
  have either : ∀ other, (other ∈ name :: seen ∨ other ∈ given members) ↔
      (other ∈ seen ∨ other ∈ name :: given members) := by
    intro other
    simp only [List.mem_cons]
    tauto
  constructor
  · intro fills
    have once := fills.once
    have fresh := fills.fresh
    have complete := fills.complete
    rw [cons] at once fresh complete
    refine ⟨fresh name List.mem_cons_self, once.of_cons, fun other member => ?_,
      complete.imp_right fun all field member => (either _).mpr (all field member), fills.result⟩
    intro seen
    rcases List.mem_cons.mp seen with rfl | seen
    · exact (List.nodup_cons.mp once).1 member
    · exact fresh other (.tail name member) seen
  · rintro ⟨new, fills⟩
    have once : name ∉ given members := fun member =>
      fills.fresh name member List.mem_cons_self
    refine ⟨List.nodup_cons.mpr ⟨once, fills.once⟩, fun other member => ?_,
      fills.complete.imp_right fun all field member => (either _).mp (all field member),
      fills.result⟩
    rcases List.mem_cons.mp member with rfl | member
    · exact new
    · exact fun seen => fills.fresh other member (.tail name seen)

/-- A member that is passed over. -/
theorem cons_none_iff : shape.Fills seen value ((name, none) :: members) result ↔
    shape.Fills seen value members result := by
  constructor
  · rintro ⟨once, fresh, complete, result⟩
    exact ⟨once, fresh, complete, result⟩
  · rintro ⟨once, fresh, complete, result⟩
    exact ⟨once, fresh, complete, result⟩

end Shape.Fills

theorem Shape.filled_of_members : ∀ {rounds : Nat} {first : Bool} {seen : List String}
    {value result : σ} {text rest : List Char},
    shape.members rounds first seen value text = .ok (result, rest) →
      ∃ members more, rest = '}' :: more ∧ Members shape.Reads first text members more ∧
        shape.Fills seen value members result := by
  intro rounds
  induction rounds with
  | zero =>
      intro first seen value result text rest read
      exact absurd read throw_ne_ok
  | succ rounds ih =>
      intro first seen value result text rest read
      unfold Shape.members at read
      obtain ⟨more, mid, next, read⟩ := bind_eq_ok.mp read
      cases more with
      | false =>
          obtain ⟨blanks, late, rfl⟩ := another_false_iff.mp next
          rw [if_neg Bool.false_ne_true] at read
          split at read
          · rename_i complete
            obtain ⟨rfl, rfl⟩ := pure_eq_ok.mp read
            refine ⟨[], late, rfl, .close blanks, Shape.Fills.nil_iff.mpr ⟨?_, rfl⟩⟩
            simpa using complete
          · exact absurd read throw_ne_ok
      | true =>
          obtain ⟨start, opened, separated, begins, rfl⟩ := nextMember_true_iff.mp next
          rw [if_pos rfl] at read
          obtain ⟨name, behind, quoted, read⟩ := bind_eq_ok.mp read
          cases found : shape.fields.find? fun field => field.name = name with
          | some field =>
              rw [found] at read
              dsimp only at read
              split_ifs at read with dup
              · exact absurd read throw_ne_ok
              · obtain ⟨_, begun, colon, read⟩ := bind_eq_ok.mp read
                obtain ⟨change, late, changes, read⟩ := bind_eq_ok.mp read
                obtain ⟨members, more, rfl, later, fills⟩ := ih read
                have named := named_iff.mpr ⟨opened, behind, begins, quoted, colon⟩
                have reads := (reads_of_found found).mpr ⟨change, rfl, changes⟩
                exact ⟨(name, some change) :: members, more, rfl,
                  .next separated named reads later, Fills.cons_some_iff.mpr ⟨dup, fills⟩⟩
          | none =>
              rw [found] at read
              dsimp only at read
              split_ifs at read with closed
              · exact absurd read throw_ne_ok
              · obtain ⟨_, begun, colon, read⟩ := bind_eq_ok.mp read
                obtain ⟨_, late, skipped, read⟩ := bind_eq_ok.mp read
                obtain ⟨members, more, rfl, later, fills⟩ := ih read
                have named := named_iff.mpr ⟨opened, behind, begins, quoted, colon⟩
                have reads := (reads_of_unknown found).mpr
                  ⟨by simpa using closed, rfl, skipValue_eq_ok_iff.mp skipped⟩
                exact ⟨(name, none) :: members, more, rfl, .next separated named reads later,
                  Fills.cons_none_iff.mpr fills⟩

theorem Members.read {members : List (String × Option (σ → σ))}
    (written : Members shape.Reads first text members rest) :
    ∀ {rounds : Nat} {seen : List String} {value result : σ}, members.length < rounds →
      shape.Fills seen value members result →
      shape.members rounds first seen value text = .ok (result, '}' :: rest) := by
  induction written with
  | close closed =>
      intro rounds seen value result enough fills
      obtain ⟨rounds, rfl⟩ := Nat.exists_eq_succ_of_ne_zero (Nat.ne_zero_of_lt enough)
      obtain ⟨complete, rfl⟩ := Shape.Fills.nil_iff.mp fills
      unfold Shape.members
      refine bind_eq_ok.mpr ⟨false, _, another_false_iff.mpr ⟨closed, _, rfl⟩, ?_⟩
      rw [if_neg Bool.false_ne_true, if_pos (by simpa using complete)]
      rfl
  | @next first name change? members text start begun behind rest separated named taken later ih =>
      intro rounds seen value result enough fills
      obtain ⟨rounds, rfl⟩ := Nat.exists_eq_succ_of_ne_zero (Nat.ne_zero_of_lt enough)
      have within : members.length < rounds := Nat.lt_of_succ_lt_succ enough
      obtain ⟨opened, closed, begins, quoted, colon⟩ := named_iff.mp named
      unfold Shape.members
      refine bind_eq_ok.mpr ⟨true, _, nextMember_true_iff.mpr
        ⟨start, opened, separated, begins, rfl⟩, ?_⟩
      rw [if_pos rfl]
      refine bind_eq_ok.mpr ⟨name, closed, quoted, ?_⟩
      cases found : shape.fields.find? fun field => field.name = name with
      | some field =>
          obtain ⟨change, rfl, changes⟩ := (Shape.reads_of_found found).mp taken
          obtain ⟨new, fills⟩ := Shape.Fills.cons_some_iff.mp fills
          dsimp only
          rw [if_neg new]
          refine bind_eq_ok.mpr ⟨(), begun, colon, ?_⟩
          exact bind_eq_ok.mpr ⟨change, behind, changes, ih within fills⟩
      | none =>
          obtain ⟨isOpen, rfl, skipped⟩ := (Shape.reads_of_unknown found).mp taken
          dsimp only
          rw [if_neg (by simp [isOpen])]
          refine bind_eq_ok.mpr ⟨(), begun, colon, ?_⟩
          exact bind_eq_ok.mpr ⟨(), behind, skipValue_eq_ok_iff.mpr skipped,
            ih within (Shape.Fills.cons_none_iff.mp fills)⟩

/-! ### Arrays -/

/-- Where an array ends, a lenient record has its value. -/
theorem Shape.positions_of_closed (lenient : shape.lenient = true) (fields : List (Field σ))
    (first : Bool) (value : σ) :
    ∀ {text more : List Char}, afterBlanks text = ']' :: more →
      ∃ behind, shape.positions fields first value text = .ok (value, behind) ∧
        afterBlanks behind = ']' :: more := by
  induction fields with
  | nil =>
      intro text more closed
      exact ⟨text, rfl, closed⟩
  | cons field fields ih =>
      intro text more closed
      obtain ⟨behind, run, closed'⟩ := ih ((afterBlanks_afterBlanks text).trans closed)
      refine ⟨behind, ?_, closed'⟩
      unfold Shape.positions
      refine bind_eq_ok.mpr ⟨false, _, another_false_iff.mpr ⟨rfl, more, closed⟩, ?_⟩
      rw [if_neg Bool.false_ne_true, if_pos lenient]
      exact run

theorem Shape.positions_iff {fields : List (Field σ)}
    (known : ∀ field ∈ fields,
      (shape.fields.find? fun other => other.name = field.name) = some field) :
    ∀ {first : Bool} {value result : σ} {text rest : List Char},
    (∃ behind, shape.positions fields first value text = .ok (result, behind) ∧
      afterBlanks behind = ']' :: rest) ↔
    ∃ members, Elements shape.Reads (fields.map Field.name) first text members rest ∧
      (shape.lenient = true ∨ members.length = fields.length) ∧
      members.foldl (fun value member => member.2.getD id value) value = result := by
  induction fields with
  | nil =>
      intro first value result text rest
      constructor
      · rintro ⟨behind, run, closed⟩
        obtain ⟨rfl, rfl⟩ := pure_eq_ok.mp run
        exact ⟨[], .close closed, Or.inr rfl, rfl⟩
      · rintro ⟨members, written, _, rfl⟩
        cases written with
        | close closed => exact ⟨text, rfl, closed⟩
  | cons field fields ih =>
      intro first value result text rest
      have found := known field List.mem_cons_self
      have ih := @ih fun other member => known other (.tail field member)
      unfold Shape.positions
      constructor
      · rintro ⟨behind, run, closed⟩
        obtain ⟨more, mid, next, run⟩ := bind_eq_ok.mp run
        cases more with
        | false =>
            obtain ⟨blanks, late, rfl⟩ := another_false_iff.mp next
            rw [if_neg Bool.false_ne_true] at run
            split_ifs at run with lenient
            · have again : afterBlanks (']' :: late) = ']' :: late := rfl
              obtain ⟨_, run', closed'⟩ := positions_of_closed lenient fields first value again
              cases run'.symm.trans run
              cases closed'.symm.trans closed
              exact ⟨[], .close blanks, Or.inl lenient, rfl⟩
            · exact absurd run throw_ne_ok
        | true =>
            obtain ⟨start, separated, opens, rfl⟩ := nextElement_true_iff.mp next
            rw [if_pos rfl] at run
            obtain ⟨change, late, read, run⟩ := bind_eq_ok.mp run
            obtain ⟨members, written, complete, made⟩ := ih.mp ⟨behind, run, closed⟩
            exact ⟨(field.name, some change) :: members,
              .next separated opens ((reads_of_found found).mpr ⟨change, rfl, read⟩) written,
              complete.imp_right (congrArg (· + 1)), made⟩
      · rintro ⟨members, written, complete, made⟩
        cases written with
        | close closed =>
            cases made
            have lenient := complete.resolve_right (Nat.succ_ne_zero _).symm
            exact positions_of_closed lenient (field :: fields) first value closed
        | next separated opens taken later =>
            obtain ⟨change, rfl, read⟩ := (reads_of_found found).mp taken
            obtain ⟨behind, run, closed⟩ := ih.mpr ⟨_, later, complete.imp_right Nat.succ.inj, made⟩
            have next := nextElement_true_iff.mpr ⟨_, separated, opens, rfl⟩
            refine ⟨behind, bind_eq_ok.mpr ⟨true, _, next, ?_⟩, closed⟩
            rw [if_pos rfl]
            exact bind_eq_ok.mpr ⟨change, _, read, run⟩

/-! ### The whole record -/

/-- No field gets more text back than it was given, and each is found by its name. -/
structure Shape.Regular (shape : Shape σ) : Prop where
  shorter : ∀ field ∈ shape.fields, ∀ {text change rest},
    field.read text = .ok (change, rest) → rest.length ≤ text.length
  known : ∀ field ∈ shape.fields,
    (shape.fields.find? fun other => other.name = field.name) = some field

theorem Shape.Regular.reads_shorter (regular : shape.Regular) {name : String}
    {change? : Option (σ → σ)} (taken : shape.Reads name text change? rest) :
    rest.length ≤ text.length := by
  cases found : shape.fields.find? fun field => field.name = name with
  | some field =>
      obtain ⟨change, _, read⟩ := (Shape.reads_of_found found).mp taken
      exact regular.shorter field (List.mem_of_find?_eq_some found) read
  | none =>
      obtain ⟨_, _, value⟩ := (Shape.reads_of_unknown found).mp taken
      exact Nat.le_of_lt value.shorter

/-- The members of a record, written as an object, or as an array unless the record is closed. -/
inductive Shape.Written (shape : Shape σ) (text : List Char)
    (members : List (String × Option (σ → σ))) (result : σ) (rest : List Char) : Prop
  | object {inner : List Char} (opened : afterBlanks text = '{' :: inner)
      (written : Members shape.Reads true inner members rest)
      (fills : shape.Fills [] shape.start members result)
  | array {inner : List Char} (opened : afterBlanks text = '[' :: inner)
      (isOpen : shape.closed = false)
      (written : Elements shape.Reads (shape.fields.map Field.name) true inner members rest)
      (complete : shape.lenient = true ∨ members.length = shape.fields.length)
      (made : members.foldl (fun value member => member.2.getD id value) shape.start = result)

/-- **A record** is read exactly where its members are written. -/
theorem Shape.record_eq_ok_iff (regular : shape.Regular) {result : σ} :
    shape.record text = .ok (result, rest) ↔ ∃ members, shape.Written text members result rest := by
  unfold Shape.record
  rw [peekValue_bind_iff]
  constructor
  · rintro ⟨c, inner, opened, read⟩
    split_ifs at read with array object
    · obtain ⟨rfl, isOpen⟩ := array
      rw [skipOne_bind] at read
      obtain ⟨value, behind, run, read⟩ := bind_eq_ok.mp read
      obtain ⟨_, late, closed, done⟩ := bind_eq_ok.mp read
      obtain ⟨rfl, rfl⟩ := pure_eq_ok.mp done
      obtain ⟨members, written, complete, made⟩ := (Shape.positions_iff regular.known).mp
        ⟨behind, run, mark_eq_ok_iff.mp closed⟩
      exact ⟨members, .array opened (by simpa using isOpen) written complete made⟩
    · obtain rfl := object
      rw [skipOne_bind, get_bind] at read
      obtain ⟨value, behind, run, read⟩ := bind_eq_ok.mp read
      obtain ⟨_, late, closed, done⟩ := bind_eq_ok.mp read
      obtain ⟨rfl, rfl⟩ := pure_eq_ok.mp done
      obtain ⟨members, more, rfl, written, fills⟩ := Shape.filled_of_members run
      cases mark_eq_ok_iff.mp closed
      exact ⟨members, .object opened written fills⟩
    · exact absurd read otherKind_ne_ok
  · rintro ⟨members, written⟩
    cases written with
    | @array inner opened isOpen written complete made =>
        refine ⟨'[', inner, opened, ?_⟩
        obtain ⟨behind, run, closed⟩ := (Shape.positions_iff regular.known).mpr
          ⟨members, written, complete, made⟩
        rw [if_pos ⟨rfl, by simp [isOpen]⟩, skipOne_bind]
        refine bind_eq_ok.mpr ⟨result, behind, run, ?_⟩
        exact bind_eq_ok.mpr ⟨(), rest, mark_eq_ok_iff.mpr closed, rfl⟩
    | @object inner opened written fills =>
        refine ⟨'{', inner, opened, ?_⟩
        have enough : members.length < inner.length + 1 :=
          Nat.lt_succ_of_lt (written.length_lt regular.reads_shorter)
        rw [if_neg (fun both => absurd both.1 (by decide)), if_pos rfl, skipOne_bind, get_bind]
        refine bind_eq_ok.mpr ⟨result, '}' :: rest, written.read enough fills, ?_⟩
        exact bind_eq_ok.mpr ⟨(), rest, mark_eq_ok_iff.mpr rfl, rfl⟩

end ContinuousBatching.Json
