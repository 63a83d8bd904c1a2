/-
**The settings in a file.**

A file with settings holds an object or an array in JSON. A member of the object with the name of a
limit has a whole number of 64 bits and sets the limit to it; no limit is given twice. Any other
members are passed over, whatever their values are. An array has the limits in their order, and may
leave out the last ones. What is not given is as usual, and at last the settings have to be usable.

* `EngineSettings.Written`, `EngineSettings.Given`: the members of a text and the settings that they
  give;
* `EngineSettings.read_eq_ok_iff`: the settings in a text;
* `EngineSettings.ofBytes_eq_ok_iff`: **the settings of a file**.
-/

import ContinuousBatching.Proofs.Engine.Calls
import ContinuousBatching.Proofs.Json.Record

namespace ContinuousBatching

open Json (afterBlanks Decimal Value Members Elements given)

/-- The number that a member with this name gives, or else the usual one. -/
def told (members : List (String × Option Nat)) (name : String) (usual : Nat) : Nat :=
  (members.findSome? fun member => if member.1 = name then member.2 else none).getD usual

namespace EngineSettings

/-- The names of the limits, in the order of an array. -/
def limitNames : List String :=
  ["max_num_seqs", "max_single_sequence_length", "max_sequence_ids", "block_size", "num_blocks"]

/-- What the value of a member says: a number of 64 bits if the member has the name of a limit,
otherwise any value, which is passed over. -/
def Tells (name : String) (text : List Char) (number? : Option Nat) (rest : List Char) : Prop :=
  if name ∈ limitNames then
    ∃ n, number? = some n ∧ Decimal (afterBlanks text) n rest ∧ n < Count.limit
  else number? = none ∧ Value (afterBlanks text) rest

/-- A text with these members: an object that gives no limit twice, or an array with the first of
the limits. -/
inductive Written (text : List Char) (members : List (String × Option Nat)) : Prop
  | object {inner rest : List Char} (opened : afterBlanks text = '{' :: inner)
      (written : Members Tells true inner members rest) (once : (given members).Nodup)
      (ended : afterBlanks rest = [])
  | array {inner rest : List Char} (opened : afterBlanks text = '[' :: inner)
      (written : Elements Tells limitNames true inner members rest) (ended : afterBlanks rest = [])

/-- The settings with these members, and the usual ones where there is no member. -/
structure Given (members : List (String × Option Nat)) (settings : EngineSettings) : Prop where
  maxRunning : settings.maxRunning = told members "max_num_seqs" usual.maxRunning
  maxLength : settings.maxLength = told members "max_single_sequence_length" usual.maxLength
  maxSequenceIds : settings.maxSequenceIds = told members "max_sequence_ids" usual.maxSequenceIds
  blockSize : settings.blockSize = told members "block_size" usual.blockSize
  blockCount : settings.blockCount = told members "num_blocks" usual.blockCount

/-- Sets the limit with this name. -/
def set (name : String) (n : Nat) (settings : EngineSettings) : EngineSettings where
  maxRunning := if name = "max_num_seqs" then n else settings.maxRunning
  maxLength := if name = "max_single_sequence_length" then n else settings.maxLength
  maxSequenceIds := if name = "max_sequence_ids" then n else settings.maxSequenceIds
  blockSize := if name = "block_size" then n else settings.blockSize
  blockCount := if name = "num_blocks" then n else settings.blockCount

/-- A field that reads the limit with its name. -/
theorem reads_of_count {name : String} {field : Json.Field EngineSettings}
    (found : shape.fields.find? (fun other => other.name = name) = some field)
    (counts : field.read = do
      let n ← Json.count
      pure (set name n)) {text rest : List Char}
    {change? : Option (EngineSettings → EngineSettings)} :
    shape.Reads name text change? rest ↔ ∃ n, change? = some (set name n) ∧
      Decimal (afterBlanks text) n rest ∧ n < Count.limit := by
  rw [Json.Shape.reads_of_found found]
  simp only [counts, Json.bind_eq_ok, Json.pure_eq_ok, Json.count,
    Json.natBelow_eq_ok_iff (Nat.le_refl _)]
  constructor
  · rintro ⟨change, rfl, n, _, taken, rfl, rfl⟩
    exact ⟨n, rfl, taken⟩
  · rintro ⟨n, rfl, taken⟩
    exact ⟨_, rfl, n, rest, taken, rfl, rfl⟩

theorem reads_limit {name : String} (known : name ∈ limitNames) {text rest : List Char}
    {change? : Option (EngineSettings → EngineSettings)} :
    shape.Reads name text change? rest ↔ ∃ n, change? = some (set name n) ∧
      Decimal (afterBlanks text) n rest ∧ n < Count.limit := by
  simp only [limitNames, List.mem_cons, List.not_mem_nil, or_false] at known
  obtain rfl | rfl | rfl | rfl | rfl := known
  · exact reads_of_count rfl rfl
  · exact reads_of_count rfl rfl
  · exact reads_of_count rfl rfl
  · exact reads_of_count rfl rfl
  · exact reads_of_count rfl rfl

theorem find?_of_unknown {name : String} (unknown : name ∉ limitNames) :
    shape.fields.find? (fun field => field.name = name) = none := by
  rw [List.find?_eq_none]
  intro field member same
  have names : shape.fields.map Json.Field.name = limitNames := rfl
  refine unknown (names ▸ ?_)
  exact (of_decide_eq_true same) ▸ List.mem_map_of_mem member

/-- A member changes the limit that it names to the number that it says. -/
theorem reads_iff {name : String} {text rest : List Char}
    {change? : Option (EngineSettings → EngineSettings)} :
    shape.Reads name text change? rest ↔
      ∃ number?, Tells name text number? rest ∧ change? = number?.map (set name) := by
  by_cases known : name ∈ limitNames
  · simp only [Tells, if_pos known, reads_limit known]
    constructor
    · rintro ⟨n, rfl, taken⟩
      exact ⟨some n, ⟨n, rfl, taken⟩, rfl⟩
    · rintro ⟨_, ⟨n, rfl, taken⟩, rfl⟩
      exact ⟨n, rfl, taken⟩
  · simp only [Tells, if_neg known, Json.Shape.reads_of_unknown (find?_of_unknown known)]
    constructor
    · rintro ⟨_, rfl, value⟩
      exact ⟨none, ⟨rfl, value⟩, rfl⟩
    · rintro ⟨_, ⟨rfl, value⟩, rfl⟩
      exact ⟨rfl, rfl, value⟩

theorem regular_shape : shape.Regular where
  shorter := by
    intro field member text change rest read
    have number : ∃ n, Decimal (afterBlanks text) n rest := by
      simp only [shape, List.mem_cons, List.not_mem_nil, or_false] at member
      obtain rfl | rfl | rfl | rfl | rfl := member <;>
      · obtain ⟨n, _, counted, done⟩ := Json.bind_eq_ok.mp read
        obtain ⟨-, rfl⟩ := Json.pure_eq_ok.mp done
        exact ⟨n, ((Json.natBelow_eq_ok_iff (Nat.le_refl _)).mp counted).1⟩
    obtain ⟨n, decimal⟩ := number
    exact Nat.le_trans decimal.shorter (Json.length_afterBlanks_le text)
  known := by
    intro field member
    simp only [shape, List.mem_cons, List.not_mem_nil, or_false] at member
    obtain rfl | rfl | rfl | rfl | rfl := member <;> rfl

/-- An array gives no limit twice. -/
theorem nodup_given {members : List (String × Option Nat)} {text rest : List Char}
    (written : Elements Tells limitNames true text members rest) : (given members).Nodup := by
  have distinct : limitNames.Nodup := by decide
  exact (Json.given_sublist members).nodup (written.names.sublist.nodup distinct)

/-- What the members do to the settings. -/
def changes (members : List (String × Option Nat)) :
    List (String × Option (EngineSettings → EngineSettings)) :=
  members.map fun member => (member.1, member.2.map (set member.1))

theorem members_iff {first : Bool} {text rest : List Char}
    {members : List (String × Option (EngineSettings → EngineSettings))} :
    Members shape.Reads first text members rest ↔
      ∃ said, Members Tells first text said rest ∧ members = changes said :=
  Json.Members.map_iff (f := fun name => Option.map (set name)) fun _ _ _ _ => reads_iff

theorem elements_iff {names : List String} {first : Bool} {text rest : List Char}
    {members : List (String × Option (EngineSettings → EngineSettings))} :
    Elements shape.Reads names first text members rest ↔
      ∃ said, Elements Tells names first text said rest ∧ members = changes said :=
  Json.Elements.map_iff (f := fun name => Option.map (set name)) fun _ _ _ _ => reads_iff

/-- A limit is what the member with its name says. -/
theorem limit_changed {name : String} {limit : EngineSettings → Nat}
    (sets : ∀ other n settings, limit (set other n settings) =
      if other = name then n else limit settings) {members : List (String × Option Nat)}
    (once : (given members).Nodup) : ∀ start : EngineSettings,
      limit ((changes members).foldl (fun settings member => member.2.getD id settings) start) =
        told members name (limit start) := by
  induction members with
  | nil => exact fun start => rfl
  | cons member members ih =>
      intro start
      obtain ⟨other, _ | n⟩ := member
      · refine (ih once start).trans ?_
        simp [told]
      · have once : (other :: given members).Nodup := once
        refine (ih once.of_cons (set other n start)).trans ?_
        rw [sets]
        by_cases same : other = name
        · have missing : (members.findSome? fun member =>
              if member.1 = name then member.2 else none) = none := by
            rw [List.findSome?_eq_none_iff]
            rintro ⟨later, value?⟩ member
            by_cases again : later = name
            · rw [if_pos again]
              cases value? with
              | none => rfl
              | some value =>
                  refine absurd (Json.mem_given_iff.mpr ⟨value, ?_⟩) (List.nodup_cons.mp once).1
                  rwa [same, ← again]
            · exact if_neg again
          simp [told, same, missing]
        · simp [told, same]

/-- Members give one settings only. -/
theorem Given.unique {members : List (String × Option Nat)} {settings other : EngineSettings}
    (gives : Given members settings) (gives' : Given members other) : settings = other := by
  cases settings
  cases other
  rw [EngineSettings.mk.injEq]
  exact ⟨gives.maxRunning.trans gives'.maxRunning.symm, gives.maxLength.trans gives'.maxLength.symm,
    gives.maxSequenceIds.trans gives'.maxSequenceIds.symm,
    gives.blockSize.trans gives'.blockSize.symm, gives.blockCount.trans gives'.blockCount.symm⟩

theorem changed_iff {members : List (String × Option Nat)} (once : (given members).Nodup)
    {settings : EngineSettings} :
    (changes members).foldl (fun settings member => member.2.getD id settings) usual = settings ↔
      Given members settings := by
  have changed : Given members
      ((changes members).foldl (fun settings member => member.2.getD id settings) usual) := by
    constructor
    all_goals exact limit_changed (fun _ _ _ => rfl) once usual
  constructor
  · rintro rfl
    exact changed
  · exact fun gives => changed.unique gives

/-- **The settings in a text** are those that its members give. -/
theorem read_eq_ok_iff {text : String} {settings : EngineSettings} :
    Json.read shape.record text = .ok settings ↔
      ∃ members, Written text.toList members ∧ Given members settings := by
  rw [Json.read_eq_ok_iff]
  simp only [Json.Shape.record_eq_ok_iff regular_shape]
  constructor
  · rintro ⟨rest, ⟨members, written⟩, ended⟩
    cases written with
    | object opened written fills =>
        obtain ⟨said, tells, rfl⟩ := members_iff.mp written
        have once := fills.once
        rw [changes, Json.given_map] at once
        exact ⟨said, .object opened tells once ended, (changed_iff once).mp fills.result⟩
    | array opened _ written complete made =>
        obtain ⟨said, tells, rfl⟩ := elements_iff.mp written
        exact ⟨said, .array opened tells ended, (changed_iff (nodup_given tells)).mp made⟩
  · rintro ⟨said, written, gives⟩
    cases written with
    | @object _ rest opened written once ended =>
        refine ⟨rest, ⟨changes said, .object opened (members_iff.mpr ⟨said, written, rfl⟩) ?_⟩,
          ended⟩
        refine ⟨?_, fun _ _ seen => (by cases seen), Or.inl rfl, (changed_iff once).mpr gives⟩
        rwa [changes, Json.given_map]
    | @array _ rest opened written ended =>
        exact ⟨rest, ⟨changes said, .array opened rfl (elements_iff.mpr ⟨said, written, rfl⟩)
          (Or.inl rfl) ((changed_iff (nodup_given written)).mpr gives)⟩, ended⟩

/-- The settings that the bytes of a file describe: they are those that the members of its text
give, and can be used. -/
def Describes (bytes : ByteArray) (settings : EngineSettings) : Prop :=
  ∃ text members, String.fromUTF8? bytes = some text ∧ Written text.toList members ∧
    Given members settings ∧ settings.Usable

/-- **The settings of a file** are those that it describes; no other file has any. -/
theorem ofBytes_eq_ok_iff {bytes : ByteArray} {settings : EngineSettings} :
    ofBytes bytes = .ok settings ↔ Describes bytes settings := by
  unfold ofBytes Describes
  cases String.fromUTF8? bytes with
  | none => simp
  | some text =>
      unfold ofJson
      constructor
      · intro done
        obtain ⟨found, read, done⟩ := bind_eq_ok_iff.mp done
        obtain ⟨_, usable, done⟩ := bind_eq_ok_iff.mp done
        cases done
        cases taken : Json.read shape.record text with
        | error trouble =>
            rw [taken] at read
            cases read
        | ok value =>
            rw [taken] at read
            cases read
            obtain ⟨members, written, gives⟩ := read_eq_ok_iff.mp taken
            exact ⟨text, members, rfl, written, gives, validate_eq_ok_iff.mp usable⟩
      · rintro ⟨_, members, ⟨⟩, written, gives, usable⟩
        have taken := read_eq_ok_iff.mpr ⟨members, written, gives⟩
        refine bind_eq_ok_iff.mpr ⟨settings, by rw [taken]; rfl, ?_⟩
        exact bind_eq_ok_iff.mpr ⟨(), validate_eq_ok_iff.mpr usable, rfl⟩

/-- What members give are counts of 64 bits. -/
theorem Written.told_lt {text : List Char} {members : List (String × Option Nat)}
    (written : Written text members) (name : String) {usual : Nat} (fits : usual < Count.limit) :
    told members name usual < Count.limit := by
  have tells : ∀ member ∈ members, ∃ text rest, Tells member.1 text member.2 rest := by
    cases written with
    | object _ written => exact written.read_of_mem
    | array _ written => exact written.read_of_mem
  unfold told
  cases found : members.findSome? fun member => if member.1 = name then member.2 else none with
  | none => exact fits
  | some n =>
      obtain ⟨member, among, value⟩ := List.exists_of_findSome?_eq_some found
      obtain ⟨text, rest, tells⟩ := tells member among
      unfold Tells at tells
      split_ifs at value tells
      · obtain ⟨m, same, _, below⟩ := tells
        cases same.symm.trans value
        exact below
      · rw [tells.1] at value
        cases value

theorem Describes.maxLength_lt {bytes : ByteArray} {settings : EngineSettings}
    (describes : Describes bytes settings) : settings.maxLength < Count.limit := by
  obtain ⟨text, members, _, written, gives, _⟩ := describes
  rw [gives.maxLength]
  exact written.told_lt _ (by decide)

end EngineSettings

end ContinuousBatching
