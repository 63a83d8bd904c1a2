/-
**Reading JSON from left to right.**

A `Reader` takes a value off the front of a text and leaves the rest, or says what is wrong with the
text: it ends too early (`truncated`), it is not JSON (`illFormed`), or it is JSON of another type
than the one asked for (`illTyped`). The first trouble met decides.

This module has the pieces that do not depend on a type: blanks, fixed words, strings, and
`skipValue`, which passes over a value of any shape and any depth without looking at it.
-/

import ContinuousBatching.Failure
import ContinuousBatching.Natural

namespace ContinuousBatching.Json

/-- Takes a value off the front of a text. -/
abbrev Reader (α : Type) := StateT (List Char) (Except Malformed) α

/-- The four characters that may stand between values. -/
def isBlank (c : Char) : Bool := c = ' ' || c = '\n' || c = '\t' || c = '\r'

/-- The text from its first character that is not blank. -/
def afterBlanks (text : List Char) : List Char := text.dropWhile isBlank

/-- Passes over blanks. -/
def skipBlanks : Reader Unit := modify afterBlanks

/-- Passes over one character. -/
def skipOne : Reader Unit := modify (List.drop 1)

/-- The first character of the value that comes next. -/
def peekValue : Reader Char := do
  skipBlanks
  match ← get with
  | [] => throw .truncated
  | c :: _ => pure c

/-- The text after a fixed word. -/
def afterWord : List Char → List Char → Except Malformed (List Char)
  | [], text => .ok text
  | _ :: _, [] => .error .truncated
  | c :: word, d :: text => if c = d then afterWord word text else .error .illFormed

/-- Passes over a fixed word. -/
def word (expected : String) : Reader Unit := do
  set (← afterWord expected.toList (← get))

/-! ### Strings -/

/-- The value of a hexadecimal digit. -/
def hexValue? (c : Char) : Option Nat :=
  if '0' ≤ c ∧ c ≤ '9' then some (c.toNat - '0'.toNat)
  else if 'a' ≤ c ∧ c ≤ 'f' then some (c.toNat - 'a'.toNat + 10)
  else if 'A' ≤ c ∧ c ≤ 'F' then some (c.toNat - 'A'.toNat + 10)
  else none

/-- Four hexadecimal digits. A text of fewer than four bytes is too short for them. -/
def hexQuad : List Char → Except Malformed (Nat × List Char)
  | a :: b :: c :: d :: rest =>
    match hexValue? a, hexValue? b, hexValue? c, hexValue? d with
    | some a, some b, some c, some d => .ok (((a * 16 + b) * 16 + c) * 16 + d, rest)
    | _, _, _, _ => .error .illFormed
  | text =>
    if (String.ofList text).utf8ByteSize < 4 then .error .truncated else .error .illFormed

/-- The character that a letter after a backslash stands for. -/
def simpleEscape? (c : Char) : Option Char :=
  match c with
  | '"' => some '"'
  | '\\' => some '\\'
  | '/' => some '/'
  | 'b' => some '\x08'
  | 'f' => some '\x0c'
  | 'n' => some '\n'
  | 'r' => some '\r'
  | 't' => some '\t'
  | _ => none

/-- What follows a backslash, as one character. A character beyond U+FFFF takes two escapes, a
leading and a trailing surrogate, and neither may stand alone. -/
def escaped : List Char → Except Malformed (Char × List Char)
  | [] => .error .truncated
  | 'u' :: text => do
    let (lead, rest) ← hexQuad text
    if 0xDC00 ≤ lead ∧ lead ≤ 0xDFFF then .error .illFormed
    else if lead < 0xD800 ∨ 0xDBFF < lead then .ok (Char.ofNat lead, rest)
    else
      match rest with
      | [] | ['\\'] => .error .truncated
      | '\\' :: 'u' :: rest => do
        let (trail, rest) ← hexQuad rest
        if 0xDC00 ≤ trail ∧ trail ≤ 0xDFFF then
          .ok (Char.ofNat ((lead - 0xD800) * 0x400 + (trail - 0xDC00) + 0x10000), rest)
        else .error .illFormed
      | _ => .error .illFormed
  | c :: text =>
    match simpleEscape? c with
    | some d => .ok (d, text)
    | none => .error .illFormed

/-- What follows a backslash in a string that nobody keeps: surrogates need no partner. -/
def afterEscape : List Char → Except Malformed (List Char)
  | [] => .error .truncated
  | 'u' :: text => do
    let (_, rest) ← hexQuad text
    .ok rest
  | c :: text => if (simpleEscape? c).isSome then .ok text else .error .illFormed

/-- The characters of a string up to its closing quotation mark, and the text behind it. Every
round takes a character off the text, so its length bounds them. -/
def stringRest : Nat → List Char → List Char → Except Malformed (List Char × List Char)
  | 0, _, _ => .error .truncated
  | _ + 1, _, [] => .error .truncated
  | rounds + 1, taken, c :: text =>
    if c = '"' then .ok (taken.reverse, text)
    else if c = '\\' then do
      let (d, rest) ← escaped text
      stringRest rounds (d :: taken) rest
    else if c.toNat < 0x20 then .error .illFormed
    else stringRest rounds (c :: taken) text

/-- The text behind a string that nobody keeps. -/
def afterString : Nat → List Char → Except Malformed (List Char)
  | 0, _ => .error .truncated
  | _ + 1, [] => .error .truncated
  | rounds + 1, c :: text =>
    if c = '"' then .ok text
    else if c = '\\' then do
      let rest ← afterEscape text
      afterString rounds rest
    else if c.toNat < 0x20 then .error .illFormed
    else afterString rounds text

/-- A string whose opening quotation mark comes next. -/
def quoted : Reader String := do
  skipOne
  let text ← get
  let (taken, rest) ← stringRest (text.length + 1) [] text
  set rest
  pure (String.ofList taken)

/-! ### Values that nobody keeps -/

/-- The text behind digits, of which there has to be one. -/
def afterDigits : List Char → Except Malformed (List Char)
  | c :: rest => if c.isDigit then .ok (rest.dropWhile Char.isDigit) else .error .illFormed
  | [] => .error .illFormed

/-- The text behind the digits before a decimal point; they do not begin with a zero unless it is
the only one. -/
def afterWhole : List Char → Except Malformed (List Char)
  | '0' :: c :: rest => if c.isDigit then .error .illFormed else .ok (c :: rest)
  | text => afterDigits text

/-- The text behind a decimal point and its digits, if there is one. -/
def afterFraction : List Char → Except Malformed (List Char)
  | '.' :: rest => afterDigits rest
  | text => .ok text

/-- The text behind an exponent, if there is one. -/
def afterExponent : List Char → Except Malformed (List Char)
  | c :: rest =>
    if c = 'e' ∨ c = 'E' then
      match rest with
      | '+' :: rest | '-' :: rest => afterDigits rest
      | rest => afterDigits rest
    else .ok (c :: rest)
  | [] => .ok []

/-- The text behind a number that nobody keeps; its size does not matter. -/
def afterNumber (text : List Char) : Except Malformed (List Char) := do
  let whole ← afterWhole text
  let fraction ← afterFraction whole
  afterExponent fraction

/-- What a value is nested in. -/
inductive Frame where
  | array
  | object
  deriving DecidableEq

/-- The text behind the name of a member and its colon; blanks before the name are passed over. -/
def afterName (text : List Char) : Except Malformed (List Char) :=
  match afterBlanks text with
  | [] => .error .truncated
  | '"' :: rest => do
    let rest ← afterString (rest.length + 1) rest
    match afterBlanks rest with
    | [] => .error .truncated
    | ':' :: rest => .ok rest
    | _ => .error .illFormed
  | _ => .error .illFormed

/-- Passes over a value and everything it is nested in, innermost first. With `pending` a value
comes next, otherwise a value has just ended. Every round takes a character off the text or leaves a
frame. -/
def afterFrames : Nat → Bool → List Frame → List Char → Except Malformed (List Char)
  | 0, _, _, _ => .error .truncated
  | _ + 1, false, [], text => .ok text
  | rounds + 1, false, frame :: outer, text =>
    match afterBlanks text, frame with
    | [], _ => .error .truncated
    | ',' :: rest, .array => afterFrames rounds true (frame :: outer) rest
    | ',' :: rest, .object => do
      let rest ← afterName rest
      afterFrames rounds true (frame :: outer) rest
    | ']' :: rest, .array => afterFrames rounds false outer rest
    | '}' :: rest, .object => afterFrames rounds false outer rest
    | _, _ => .error .illFormed
  | rounds + 1, true, frames, text =>
    match afterBlanks text with
    | [] => .error .truncated
    | 'n' :: rest => do afterFrames rounds false frames (← afterWord "ull".toList rest)
    | 't' :: rest => do afterFrames rounds false frames (← afterWord "rue".toList rest)
    | 'f' :: rest => do afterFrames rounds false frames (← afterWord "alse".toList rest)
    | '"' :: rest => do afterFrames rounds false frames (← afterString (rest.length + 1) rest)
    | '-' :: rest => do afterFrames rounds false frames (← afterNumber rest)
    | '[' :: rest =>
      match afterBlanks rest with
      | ']' :: rest => afterFrames rounds false frames rest
      | rest => afterFrames rounds true (.array :: frames) rest
    | '{' :: rest =>
      match afterBlanks rest with
      | '}' :: rest => afterFrames rounds false frames rest
      | rest => do afterFrames rounds true (.object :: frames) (← afterName rest)
    | c :: rest =>
      if c.isDigit then do afterFrames rounds false frames (← afterNumber (c :: rest))
      else .error .illFormed

/-- Passes over a value of any shape. -/
def skipValue : Reader Unit := do
  let text ← get
  set (← afterFrames (2 * text.length + 2) true [] text)

end ContinuousBatching.Json
