/-
**Writing JSON.**

Values are written compactly, without spaces, members in the order given. A string escapes only the
quotation mark, the backslash and the control characters below U+0020; every other character stands
for itself. A number that is not finite is written as `null`.
-/

import ContinuousBatching.Number.Shortest

namespace ContinuousBatching.Json

/-- The digit of a number below sixteen, in lower case. -/
def hexDigit (n : Nat) : Char :=
  if n < 10 then Char.ofNat ('0'.toNat + n) else Char.ofNat ('a'.toNat + (n - 10))

/-- How a character stands in a string. -/
def escape (c : Char) : List Char :=
  match c with
  | '"' => ['\\', '"']
  | '\\' => ['\\', '\\']
  | '\x08' => ['\\', 'b']
  | '\t' => ['\\', 't']
  | '\n' => ['\\', 'n']
  | '\x0c' => ['\\', 'f']
  | '\r' => ['\\', 'r']
  | c =>
    if c.toNat < 0x20 then ['\\', 'u', '0', '0', hexDigit (c.toNat / 16), hexDigit (c.toNat % 16)]
    else [c]

/-- A string value. -/
def string (text : String) : String :=
  "\"" ++ String.ofList (text.toList.flatMap escape) ++ "\""

/-- A whole number. -/
def nat (n : Nat) : String := toString n

/-- A truth value. -/
def bool (b : Bool) : String := if b then "true" else "false"

/-- A number of 32 bits. -/
def single (x : Number.Single) : String := x.text?.getD "null"

/-- A number of 64 bits. -/
def double (x : Number.Double) : String := x.text?.getD "null"

/-- A list of values that are already written. -/
def array (items : List String) : String := "[" ++ ",".intercalate items ++ "]"

/-- An object of members whose values are already written. -/
def object (members : List (String × String)) : String :=
  "\x7b" ++ ",".intercalate (members.map fun member => string member.1 ++ ":" ++ member.2) ++ "\x7d"

end ContinuousBatching.Json
