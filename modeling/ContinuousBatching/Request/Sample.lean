/-
**Sampled tokens.**

A sample is a token with the logarithm of its probability and the alternatives that were considered.
It is reported as a text of JSON, in which every token is spelled out; a token that the vocabulary
does not have cannot be reported.
-/

import ContinuousBatching.Json.Text
import ContinuousBatching.Request.Tokenizer

namespace ContinuousBatching

open ContinuousBatching.Number (Single)

/-- A token with what the sampler knows about it. -/
structure Sample where
  token : TokenId
  logprob : Single
  /-- The most probable tokens, the best one first. -/
  alternatives : List (TokenId × Single)
  deriving DecidableEq, Repr

namespace Sample

/-- A sample without alternatives. -/
def plain (token : TokenId) (logprob : Single) : Sample := ⟨token, logprob, []⟩

/-- The text of a token that has to be known. -/
def knownText (tokenizer : Tokenizer) (token : TokenId) : Except Failure String :=
  match tokenizer.tokenText? token with
  | some text => .ok text
  | none => .error (.untranslatable (.unknownToken token))

/-- A token and its logprob, as members of an object. -/
def members (text : String) (logprob : Single) : List (String × String) :=
  [("token", Json.string text), ("logprob", Json.single logprob)]

/-- Alternatives as JSON, up to the first unknown token. -/
def alternativesJson (tokenizer : Tokenizer) :
    List (TokenId × Single) → Except Failure (List String)
  | [] => .ok []
  | (token, logprob) :: rest => do
    let text ← knownText tokenizer token
    let others ← alternativesJson tokenizer rest
    .ok (Json.object (members text logprob) :: others)

/-- The sample as JSON with at most `count` alternatives. The alternatives are spelled out before
the token itself. -/
def toJson (sample : Sample) (tokenizer : Tokenizer) (count : Nat) : Except Failure String := do
  let alternatives ← alternativesJson tokenizer (sample.alternatives.take count)
  let text ← knownText tokenizer sample.token
  .ok (Json.object
    (members text sample.logprob ++ [("top_logprobs", Json.array alternatives)]))

end Sample

end ContinuousBatching
