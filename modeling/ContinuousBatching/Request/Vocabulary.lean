/-
**Tokenizer files.**

A file holds a model, which is a vocabulary of words with their tokens, and a list of added words,
of which some are special. It may also name steps that shorten, pad, change or split text, or put it
together again; only files without such steps can be used. Nothing may be left out of a file, and
nothing else may be in it.
-/

import ContinuousBatching.Json.Record
import ContinuousBatching.Request.Tokenizer

namespace ContinuousBatching

/-- A word added to a vocabulary. -/
structure AddedWord where
  content : String
  isSpecial : Bool

/-- What a tokenizer file holds. -/
structure Vocabulary where
  words : List (String × TokenId)
  added : List AddedWord

namespace Vocabulary

/-- The only version of the format. -/
def version : String := "1.0"

/-- The only kind of model: each word is a token. -/
def modelKind : String := "WordLevel"

/-- A field that says nothing about the record. -/
def silent {σ : Type} (name : String) (read : Json.Reader Unit) : Json.Field σ :=
  ⟨name, do
    read
    pure id⟩

/-- The given text and no other. -/
def exactly (expected : String) : Json.Reader Unit := do
  if (← Json.text) ≠ expected then throw .illTyped

/-- How a model is read. -/
def modelShape : Json.Shape (List (String × TokenId)) where
  start := []
  lenient := false
  closed := true
  fields :=
    [silent "type" (exactly modelKind),
      ⟨"vocab", do
        let words ← Json.dictionary Json.token
        pure fun _ => words⟩,
      silent "unk_token" (discard Json.text)]

/-- How an added word is read. -/
def addedShape : Json.Shape AddedWord where
  start := ⟨"", false⟩
  lenient := false
  closed := true
  fields :=
    [silent "id" (discard Json.token),
      ⟨"content", do
        let content ← Json.text
        pure fun word => { word with content := content }⟩,
      silent "single_word" (discard Json.truth),
      silent "lstrip" (discard Json.truth),
      silent "rstrip" (discard Json.truth),
      silent "normalized" (discard Json.truth),
      ⟨"special", do
        let isSpecial ← Json.truth
        pure fun word => { word with isSpecial := isSpecial }⟩]

/-- How a file is read. -/
def shape : Json.Shape Vocabulary where
  start := ⟨[], []⟩
  lenient := false
  closed := true
  fields :=
    [silent "version" (exactly version),
      silent "truncation" Json.null,
      silent "padding" Json.null,
      ⟨"added_tokens", do
        let added ← Json.list addedShape.record
        pure fun vocabulary => { vocabulary with added := added }⟩,
      silent "normalizer" Json.null,
      silent "pre_tokenizer" Json.null,
      silent "post_processor" Json.null,
      silent "decoder" Json.null,
      ⟨"model", do
        let words ← modelShape.record
        pure fun vocabulary => { vocabulary with words := words }⟩]

/-- The special words. -/
def special (vocabulary : Vocabulary) : List String :=
  (vocabulary.added.filter AddedWord.isSpecial).map AddedWord.content

end Vocabulary

/-- Reads a tokenizer of words from the text of a file. -/
def Tokenizer.ofJson (text : String) : Except Failure Tokenizer :=
  match Json.read Vocabulary.shape.record text with
  | .error trouble => .error (.untranslatable (.stated trouble.message))
  | .ok vocabulary => .ok (.words vocabulary.words vocabulary.special)

/-- Reads a tokenizer of words from the bytes of a file. -/
def Tokenizer.ofBytes (bytes : ByteArray) : Except Failure Tokenizer :=
  match String.fromUTF8? bytes with
  | some text => ofJson text
  | none => .error (.untranslatable (.stated "the file is not UTF-8"))

end ContinuousBatching
