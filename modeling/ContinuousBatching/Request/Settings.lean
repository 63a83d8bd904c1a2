/-
**How a request is to be generated.**

`GenerationSettings` limits the number of tokens, says what ends the generation early, and asks for
logprobs. A text of JSON may leave out any field, which then keeps its usual value. The reasons for
which a request can finish are `FinishReason`.
-/

import ContinuousBatching.Json.Record
import ContinuousBatching.Json.Text

namespace ContinuousBatching

open ContinuousBatching.Number (Single)

/-- Why a request finished. -/
inductive FinishReason where
  /-- A stop token or a stop text appeared. -/
  | stop
  /-- The token that ends a sequence appeared. -/
  | endOfSequence
  /-- A limit of length was reached. -/
  | length
  /-- The caller gave the request up. -/
  | abort
  deriving DecidableEq, Repr

namespace FinishReason

/-- The short name of a reason. -/
def label : FinishReason → String
  | .stop => "stop"
  | .endOfSequence => "eos"
  | .length => "length"
  | .abort => "abort"

/-- The name of a reason in JSON. -/
def jsonName : FinishReason → String
  | .stop => "stop"
  | .endOfSequence => "end_of_sequence"
  | .length => "length"
  | .abort => "abort"

/-- All reasons. -/
def all : List FinishReason := [.stop, .endOfSequence, .length, .abort]

/-- A reason as JSON. -/
def toJson (reason : FinishReason) : String := Json.string reason.jsonName

/-- Reads a reason: its name, or an object that gives the name the value `null`. -/
def reader : Json.Reader FinishReason :=
  Json.choice <| all.map fun reason =>
    ⟨reason.jsonName, some reason, do
      Json.null
      pure reason⟩

/-- Reads a reason from a text. -/
def ofJson (text : String) : Except Failure FinishReason :=
  (Json.read reader text).mapError .malformed

end FinishReason

/-- How a request is to be generated. -/
structure GenerationSettings where
  /-- For the sampler; one changes nothing. -/
  temperature : Single
  /-- For the sampler; one changes nothing. -/
  topP : Single
  /-- The number of tokens after which generation ends. -/
  maxTokens : Nat
  /-- Tokens that end generation. -/
  stopTokens : List TokenId
  /-- Texts that end generation when they appear in what was generated. -/
  stopTexts : List String
  /-- Whether generation goes on past the token that ends a sequence. -/
  ignoreEos : Bool
  /-- How many alternatives are reported with each token; with none, no logprob is. -/
  logprobs : Nat
  deriving DecidableEq, Repr

namespace GenerationSettings

/-- What holds when nothing else is said. -/
def usual : GenerationSettings where
  temperature := .one
  topP := .one
  maxTokens := 256
  stopTokens := []
  stopTexts := []
  ignoreEos := false
  logprobs := 0

instance : Inhabited GenerationSettings := ⟨usual⟩

/-- Limits the number of tokens. -/
def withMaxTokens (settings : GenerationSettings) (n : Nat) : GenerationSettings :=
  { settings with maxTokens := n }

/-- Adds a stop token. -/
def addStopToken (settings : GenerationSettings) (token : TokenId) : GenerationSettings :=
  { settings with stopTokens := settings.stopTokens ++ [token] }

/-- Adds a stop text. -/
def addStopText (settings : GenerationSettings) (text : String) : GenerationSettings :=
  { settings with stopTexts := settings.stopTexts ++ [text] }

/-- Asks for logprobs with a number of alternatives. -/
def withLogprobs (settings : GenerationSettings) (n : Nat) : GenerationSettings :=
  { settings with logprobs := n }

/-- Says whether the token that ends a sequence is ignored. -/
def withIgnoreEos (settings : GenerationSettings) (ignore : Bool) : GenerationSettings :=
  { settings with ignoreEos := ignore }

/-- The settings as JSON. -/
def toJson (settings : GenerationSettings) : String :=
  Json.object
    [("temperature", Json.single settings.temperature),
      ("top_p", Json.single settings.topP),
      ("max_tokens", Json.nat settings.maxTokens),
      ("stop_token_ids", Json.array (settings.stopTokens.map fun token => Json.nat token.toNat)),
      ("stop_strs", Json.array (settings.stopTexts.map Json.string)),
      ("ignore_eos", Json.bool settings.ignoreEos),
      ("logprobs", Json.nat settings.logprobs)]

/-- How settings are read. -/
def shape : Json.Shape GenerationSettings where
  start := usual
  lenient := true
  fields :=
    [⟨"temperature", do
        let x ← Json.singleNumber
        pure fun settings => { settings with temperature := x }⟩,
      ⟨"top_p", do
        let x ← Json.singleNumber
        pure fun settings => { settings with topP := x }⟩,
      ⟨"max_tokens", do
        let n ← Json.count
        pure fun settings => { settings with maxTokens := n }⟩,
      ⟨"stop_token_ids", do
        let tokens ← Json.list Json.token
        pure fun settings => { settings with stopTokens := tokens }⟩,
      ⟨"stop_strs", do
        let texts ← Json.list Json.text
        pure fun settings => { settings with stopTexts := texts }⟩,
      ⟨"ignore_eos", do
        let ignore ← Json.truth
        pure fun settings => { settings with ignoreEos := ignore }⟩,
      ⟨"logprobs", do
        let n ← Json.count
        pure fun settings => { settings with logprobs := n }⟩]

/-- Reads settings from a text. -/
def ofJson (text : String) : Except Failure GenerationSettings :=
  (Json.read shape.record text).mapError .malformed

end GenerationSettings

end ContinuousBatching
