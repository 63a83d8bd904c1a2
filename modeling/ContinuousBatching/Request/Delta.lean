/-
**What a request has to report.**

A `Delta` is what a request generated since its last report. `Ticket.attempt` scans the tokens that
were not reported yet, oldest first, up to the first one that finishes the request. Of several
reasons that hold at one token the first in this order counts: a stop token or stop text, the token
that ends a sequence, a limit of length. A request that was given up reports nothing but that, and a
finished request reports nothing. Both the cursor and the end of the request are noted in place.

`Ticket.ask` is the careful way to ask: it does without logprobs if they cannot be rendered, and
gives the request up if its text cannot be decoded. `Ticket.delta` and `Ticket.report` are what the
two come to, as functions of the request.
-/

import ContinuousBatching.Request.Ticket

namespace ContinuousBatching

/-- What a request reports. -/
structure Delta where
  tokens : List TokenId
  /-- For each token what is known about it, if that was asked for. -/
  logprobs : Option (List String)
  /-- Why the request finished, if it did. -/
  finish : Option FinishReason
  deriving DecidableEq, Repr

namespace Delta

/-- Nothing to report. -/
def none : Delta := ⟨[], .none, .none⟩

/-- Whether there is nothing to report. -/
def isEmpty (delta : Delta) : Bool := delta.tokens.isEmpty && delta.finish.isNone

/-- A delta that begins with one token more. -/
def cons (token : TokenId) (logprob : Option String) (delta : Delta) : Delta where
  tokens := token :: delta.tokens
  logprobs := delta.logprobs.map fun rest => logprob.toList ++ rest
  finish := delta.finish

end Delta

/-- Whether `part` occurs in `text` without gaps. -/
def occursIn (part : List Char) : List Char → Bool
  | [] => part.isEmpty
  | c :: text => part.isPrefixOf (c :: text) || occursIn part text

/-- The rules by which one request reports. -/
structure Reporting where
  settings : GenerationSettings
  tokenizer : Tokenizer
  /-- The number of positions of the input. -/
  inputLength : Nat
  /-- The largest number of positions of a sequence. -/
  maxLength : Nat
  /-- Whether logprobs are rendered. -/
  withLogprobs : Bool

namespace Reporting

/-- The token that ends the sequence, unless it is ignored. -/
def eos? (rules : Reporting) : Option TokenId :=
  if rules.settings.ignoreEos then none else rules.tokenizer.eos?

/-- Whether one of the stop texts occurs in the text of the tokens `generated` so far; without stop
texts nothing is decoded. -/
def stopTextOccurs (rules : Reporting) (generated : List TokenId) : Except Failure Bool :=
  if rules.settings.stopTexts.isEmpty then .ok false
  else do
    let text ← rules.tokenizer.decode generated
    .ok (rules.settings.stopTexts.any fun stop => !stop.isEmpty && occursIn stop.toList text.toList)

/-- Whether the last of the tokens `generated` so far, `token`, stops the request. -/
def stops (rules : Reporting) (generated : List TokenId) (token : TokenId) : Except Failure Bool :=
  if token ∈ rules.settings.stopTokens then .ok true else rules.stopTextOccurs generated

/-- Why the last of the tokens `generated` so far, `token`, finishes the request, if it does. -/
def verdict (rules : Reporting) (generated : List TokenId) (token : TokenId) :
    Checked (Option FinishReason) := do
  if ← (rules.stops generated token).mapError .refused then return some .stop
  if rules.eos? = some token then return some .endOfSequence
  let length ← Count.add rules.inputLength generated.length
  if rules.maxLength ≤ length ∨ rules.settings.maxTokens ≤ generated.length then
    return some .length
  return none

/-- What is known about a token, if logprobs are rendered. -/
def render (rules : Reporting) (sample : Sample) : Checked (Option String) :=
  if rules.withLogprobs then
    ((sample.toJson rules.tokenizer rules.settings.logprobs).mapError .refused).map some
  else .ok none

/-- Reports the tokens of a list that follow `generated`, up to the first one that finishes. -/
def scan (rules : Reporting) (generated : List TokenId) : List Sample → Checked Delta
  | [] => .ok ⟨[], if rules.withLogprobs then some [] else none, none⟩
  | sample :: rest => do
    let logprob ← rules.render sample
    let through := generated ++ [sample.token]
    match ← rules.verdict through sample.token with
    | some reason =>
      .ok ⟨[sample.token], if rules.withLogprobs then some logprob.toList else none, some reason⟩
    | none =>
      let later ← rules.scan through rest
      .ok (later.cons sample.token logprob)

end Reporting

namespace Ticket

/-- The generated tokens that were not reported yet. -/
def unreported (ticket : Ticket) : List Sample := ticket.primary.committed.drop ticket.reported

/-- The rules by which a request reports. -/
def reporting (ticket : Ticket) (tokenizer : Tokenizer) (maxLength : Nat) (logprobs : Bool) :
    Reporting where
  settings := ticket.request.settings
  tokenizer := tokenizer
  inputLength := ticket.request.inputLength
  maxLength := maxLength
  withLogprobs := logprobs && decide (0 < ticket.request.settings.logprobs)

/-- Reports in place what there is to report since the last time. The cursor and the end of the
request are written once the scan has come to its end. Without `logprobs` none are rendered, even if
the request asks for them. -/
def attempt (tokenizer : Tokenizer) (maxLength : Nat) (logprobs : Bool) : Action Ticket Delta := do
  let ticket ← get
  if ticket.finish.isSome then return .none
  else if ticket.abortRequested then
    set { ticket with reported := ticket.primary.committed.length, finish := some .abort }
    return ⟨[], none, some .abort⟩
  else
    let rules := ticket.reporting tokenizer maxLength logprobs
    let generated := (ticket.primary.committed.take ticket.reported).map Sample.token
    let delta ← rules.scan generated ticket.unreported
    set { ticket with reported := ticket.reported + delta.tokens.length, finish := delta.finish }
    return delta

/-- Reports with logprobs; if they cannot be rendered, without; if that is impossible too, the
request is given up and reports that. -/
def ask (tokenizer : Tokenizer) (maxLength : Nat) : Action Ticket Delta :=
  (attempt tokenizer maxLength true).unlessFatal
    ((attempt tokenizer maxLength false).unlessFatal do
      modify abort
      attempt tokenizer maxLength true)

/-- What one attempt comes to. -/
def delta (ticket : Ticket) (tokenizer : Tokenizer) (maxLength : Nat) (logprobs : Bool) :
    Checked (Delta × Ticket) :=
  (attempt tokenizer maxLength logprobs).result ticket

/-- What asking comes to. -/
def report (ticket : Ticket) (tokenizer : Tokenizer) (maxLength : Nat) :
    Checked (Delta × Ticket) :=
  (ask tokenizer maxLength).result ticket

end Ticket

end ContinuousBatching
