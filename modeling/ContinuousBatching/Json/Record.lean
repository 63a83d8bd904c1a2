/-
**Reading values of a known type.**

A reader for a type first looks at the character that a value begins with. A value of another kind
is reported as such (`illTyped`), unless it is not JSON at all; `otherKind` makes that distinction.

A record is read by its `Shape`: a start value and the fields, each with a reader that says how the
field changes the value. It may be written as an object, in any order, unknown members being passed
over, or as an array in the order of the fields; a closed record is an object without unknown
members. A choice is read by its `Variant`s: the bare name of one, or an object whose only member is
named after it.
-/

import ContinuousBatching.Json.Numeral

namespace ContinuousBatching.Json

open ContinuousBatching.Number

/-- Whether a number begins with this character. -/
def beginsNumber (c : Char) : Bool := c = '-' || c.isDigit

/-- Reports a value of another kind than the one asked for, `c` being its first character. A number
or a string is read to its end first, an array or an object is not. -/
def otherKind {α : Type} (c : Char) : Reader α := do
  if c = 'n' then word "null"
  else if c = 't' then word "true"
  else if c = 'f' then word "false"
  else if beginsNumber c then discard numeral
  else if c = '"' then discard quoted
  else if c ≠ '[' ∧ c ≠ '{' then throw .illFormed
  throw .illTyped

/-- Passes over a character that has to come next. -/
def mark (expected : Char) : Reader Unit := do
  skipBlanks
  match ← get with
  | [] => throw .truncated
  | c :: rest => if c = expected then set rest else throw .illFormed

/-- Whether something comes next that begins as `opens` says, and not the end with `closing`; passes
over the comma in front of it. -/
def another (closing : Char) (opens : Char → Bool) (first : Bool) : Reader Bool := do
  skipBlanks
  match ← get with
  | [] => throw .truncated
  | c :: rest =>
    if c = closing then pure false
    else if first then
      if opens c then pure true else throw .illFormed
    else if c = ',' then
      set (afterBlanks rest)
      match afterBlanks rest with
      | [] => throw .truncated
      | d :: _ => if opens d then pure true else throw .illFormed
    else throw .illFormed

/-! ### Plain values -/

/-- A whole number below `bound`. -/
def natBelow (bound : Nat) : Reader Nat := do
  let c ← peekValue
  if beginsNumber c then
    match ← numeral with
    | .natural n => if n < bound then pure n else throw .illTyped
    | _ => throw .illTyped
  else otherKind c

/-- A count of 64 bits. -/
def count : Reader Nat := natBelow Count.limit

/-- A token. -/
def token : Reader TokenId := do return UInt32.ofNat (← natBelow 0x100000000)

/-- A number of 32 bits: a whole number is rounded once, any other number through 64 bits. -/
def singleNumber : Reader Single := do
  let c ← peekValue
  if beginsNumber c then
    match ← numeral with
    | .natural n => pure (.ofInt false n)
    | .negative n => pure (.ofInt true n)
    | .real x => pure (.ofDouble x)
  else otherKind c

/-- A truth value. -/
def truth : Reader Bool := do
  let c ← peekValue
  if c = 't' then
    word "true"
    pure true
  else if c = 'f' then
    word "false"
    pure false
  else otherKind c

/-- A string. -/
def text : Reader String := do
  let c ← peekValue
  if c = '"' then quoted else otherKind c

/-- The word `null`. -/
def null : Reader Unit := do
  let c ← peekValue
  if c = 'n' then word "null" else otherKind c

/-! ### Arrays -/

/-- Whether another element of an array comes next. -/
def nextElement (first : Bool) : Reader Bool := another ']' (· ≠ ']') first

/-- The end of an array. -/
def endArray : Reader Unit := mark ']'

/-- The elements of an array. Each takes at least a character off the text. -/
def elements {α : Type} (element : Reader α) : Nat → Bool → Reader (List α)
  | 0, _ => throw .truncated
  | rounds + 1, first => do
    if ← nextElement first then
      let head ← element
      let tail ← elements element rounds false
      pure (head :: tail)
    else pure []

/-- A list of values. -/
def list {α : Type} (element : Reader α) : Reader (List α) := do
  let c ← peekValue
  if c = '[' then
    skipOne
    let rounds := (← get).length + 1
    let values ← elements element rounds true
    endArray
    pure values
  else otherKind c

/-! ### Objects -/

/-- Whether another member of an object comes next. -/
def nextMember (first : Bool) : Reader Bool := another '}' (· = '"') first

/-- The colon between the name of a member and its value. -/
def colon : Reader Unit := mark ':'

/-- The end of an object. -/
def endObject : Reader Unit := mark '}'

/-! ### Records -/

/-- A field of a record, and how its value changes the record. -/
structure Field (σ : Type) where
  name : String
  read : Reader (σ → σ)

/-- How a record is read. -/
structure Shape (σ : Type) where
  start : σ
  fields : List (Field σ)
  /-- Whether a field that is missing keeps its value in `start`. -/
  lenient : Bool
  /-- Whether the record has to be an object with no other members. -/
  closed : Bool := false

/-- The members of an object that is a record. A field may be given once. -/
def Shape.members {σ : Type} (shape : Shape σ) : Nat → Bool → List String → σ → Reader σ
  | 0, _, _, _ => throw .truncated
  | rounds + 1, first, seen, value => do
    if ← nextMember first then
      let name ← quoted
      match shape.fields.find? fun field => field.name = name with
      | some field =>
        if name ∈ seen then throw .illTyped
        else
          colon
          let change ← field.read
          shape.members rounds false (name :: seen) (change value)
      | none =>
        if shape.closed then throw .illTyped
        else
          colon
          skipValue
          shape.members rounds false seen value
    else if shape.lenient ∨ shape.fields.all fun field => field.name ∈ seen then pure value
    else throw .illTyped

/-- The elements of an array that is a record. -/
def Shape.positions {σ : Type} (shape : Shape σ) : List (Field σ) → Bool → σ → Reader σ
  | [], _, value => pure value
  | field :: fields, first, value => do
    if ← nextElement first then
      let change ← field.read
      shape.positions fields false (change value)
    else if shape.lenient then shape.positions fields first value
    else throw .illTyped

/-- A record. -/
def Shape.record {σ : Type} (shape : Shape σ) : Reader σ := do
  let c ← peekValue
  if c = '[' ∧ ¬shape.closed then
    skipOne
    let value ← shape.positions shape.fields true shape.start
    endArray
    pure value
  else if c = '{' then
    skipOne
    let rounds := (← get).length + 1
    let value ← shape.members rounds true [] shape.start
    endObject
    pure value
  else otherKind c

/-- The members of an object of any names. -/
def entries {α : Type} (value : Reader α) : Nat → Bool → Reader (List (String × α))
  | 0, _ => throw .truncated
  | rounds + 1, first => do
    if ← nextMember first then
      let name ← quoted
      colon
      let head ← value
      let tail ← entries value rounds false
      pure ((name, head) :: tail)
    else pure []

/-- An object of any names, in the order of its members. -/
def dictionary {α : Type} (value : Reader α) : Reader (List (String × α)) := do
  let c ← peekValue
  if c = '{' then
    skipOne
    let rounds := (← get).length + 1
    let members ← entries value rounds true
    endObject
    pure members
  else otherKind c

/-! ### Choices -/

/-- One way to choose. -/
structure Variant (α : Type) where
  name : String
  /-- The choice, if the name alone is enough. -/
  bare : Option α
  /-- What the member named after the choice has for a value. -/
  content : Reader α

/-- The name of the only member of an object. -/
def memberName : Reader String := do
  let c ← peekValue
  if c = '"' then quoted else throw .illFormed

/-- One of several named variants. -/
def choice {α : Type} (variants : List (Variant α)) : Reader α := do
  skipBlanks
  match ← get with
  | [] => throw .truncated
  | c :: _ =>
    if c = '{' then
      skipOne
      let name ← memberName
      match variants.find? fun variant => variant.name = name with
      | none => throw .illTyped
      | some variant =>
        colon
        let value ← variant.content
        endObject
        pure value
    else if c = '"' then
      let name ← quoted
      match variants.find? fun variant => variant.name = name with
      | some ⟨_, some value, _⟩ => pure value
      | _ => throw .illTyped
    else throw .illFormed

/-! ### Whole texts -/

/-- Reads a text that holds one value and nothing else. -/
def read {α : Type} (reader : Reader α) (text : String) : Except Malformed α := do
  let (value, rest) ← reader text.toList
  if (afterBlanks rest).isEmpty then .ok value else .error .illFormed

end ContinuousBatching.Json
