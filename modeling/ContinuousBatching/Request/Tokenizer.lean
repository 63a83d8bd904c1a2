/-
**From tokens back to text.**

The scheduler never turns text into tokens; it only needs the text of tokens, to find stop texts and
to report logprobs, and the token that ends a sequence. A `Tokenizer` may fail to decode. Three are
defined here: `Tokenizer.bytes`, `Tokenizer.table` and `Tokenizer.words`.
-/

import ContinuousBatching.Failure

namespace ContinuousBatching

/-- Turns tokens into text. -/
structure Tokenizer where
  /-- The text of a run of tokens. -/
  decode : List TokenId → Except Failure String
  /-- The text of one token, if the vocabulary has it. -/
  tokenText? : TokenId → Option String
  /-- The token that ends a sequence, if there is one. -/
  eos? : Option TokenId

/-- What a fresh tokenizer of bytes takes for the end of a sequence. -/
def usualEos : TokenId := 0

namespace Tokenizer

/-- The text of a token that is a byte, or its number otherwise. -/
def byteText (token : TokenId) : String :=
  if token.toNat < 256 then String.singleton (Char.ofNat token.toNat) else s!"<{token}>"

/-- Tokens below 256 are the characters U+0000 to U+00FF, any other token is written as its number.
The token that ends a sequence leaves no text. -/
def bytes (eos? : Option TokenId) : Tokenizer where
  decode ids := .ok (String.join ((ids.filter fun id => some id ≠ eos?).map byteText))
  tokenText? id := some (byteText id)
  eos? := eos?

/-- The texts of all tokens, one after the other, or the failure of the first unknown one. -/
def joinTexts (text? : TokenId → Option String) (unknown : TokenId → Failure) :
    List TokenId → Except Failure String
  | [] => .ok ""
  | id :: ids =>
    match text? id with
    | none => .error (unknown id)
    | some text => do
      let rest ← joinTexts text? unknown ids
      .ok (text ++ rest)

/-- A vocabulary given by a function; `unknown` says how decoding fails. -/
def table (text? : TokenId → Option String) (eos? : Option TokenId)
    (unknown : TokenId → Failure) : Tokenizer where
  decode := joinTexts text? unknown
  tokenText? := text?
  eos? := eos?

/-- The usual spellings of the token that ends a sequence, the preferred one first. -/
def eosSpellings : List String := ["<|endoftext|>", "</s>", "<|im_end|>"]

/-- A vocabulary of words. Decoding puts a space between words and leaves out unknown tokens and
special words; a word without characters is never special. If a token has several words, the last
special one of them stands for it. -/
def words (vocabulary : List (String × TokenId)) (special : List String) : Tokenizer :=
  let isSpecial (word : String) : Bool := !word.isEmpty && special.contains word
  let id? (word : String) : Option TokenId :=
    (vocabulary.find? fun entry => entry.1 = word).map Prod.snd
  let specialText? (id : TokenId) : Option String :=
    special.reverse.find? fun word => isSpecial word && id? word = some id
  let text? (id : TokenId) : Option String :=
    match specialText? id with
    | some word => some word
    | none => (vocabulary.find? fun entry => entry.2 = id).map Prod.fst
  { decode := fun ids =>
      .ok (" ".intercalate ((ids.filterMap text?).filter fun word => !isSpecial word))
    tokenText? := text?
    eos? := eosSpellings.findSome? id? }

end Tokenizer

end ContinuousBatching
