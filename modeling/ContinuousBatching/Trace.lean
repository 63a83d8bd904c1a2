/-
**What is written down about a run.**

A `Trace` lists what happened to requests, oldest first. It only observes: nothing depends on it. A
`StreamRecord` is what the caller of a request is sent after a step.
-/

import ContinuousBatching.Request.Delta

namespace ContinuousBatching

/-- What can happen to a request. -/
inductive Event where
  | requested
  | admitted
  | prefilled
  | preempted
  | aborted
  | finished
  /-- Any other event. -/
  | named (name : String)
  deriving DecidableEq, Repr

/-- The name of an event. -/
def Event.name : Event → String
  | .requested => "add request"
  | .admitted => "admit"
  | .prefilled => "prefill"
  | .preempted => "preempt"
  | .aborted => "abort"
  | .finished => "finish"
  | .named name => name

/-- An event of a request. -/
structure TraceEntry where
  request : RequestId
  event : Event
  deriving DecidableEq, Repr

/-- What happened, oldest first. -/
abbrev Trace := List TraceEntry

namespace Trace

/-- The events of one request, oldest first. -/
def eventsOf (trace : Trace) (request : RequestId) : List Event :=
  (trace.filter fun entry => entry.request = request).map TraceEntry.event

/-- Writes an event down, if there is something to write on. -/
def record (trace : Option Trace) (request : RequestId) (event : Event) : Option Trace :=
  trace.map fun entries => entries ++ [⟨request, event⟩]

end Trace

/-- What the caller of a request is sent. -/
structure StreamRecord where
  request : RequestId
  tokens : List TokenId
  logprobs : Option (List String)
  finish : Option FinishReason
  deriving DecidableEq, Repr

namespace StreamRecord

/-- What a request reports; logprobs are only sent if the request asks for them. -/
def ofDelta (request : RequestId) (settings : GenerationSettings) (delta : Delta) :
    StreamRecord where
  request := request
  tokens := delta.tokens
  logprobs := if 0 < settings.logprobs then delta.logprobs else none
  finish := delta.finish

/-- The record as JSON; what is absent is left out. -/
def toJson (r : StreamRecord) : String :=
  Json.object <|
    [("request_id", Json.string r.request),
      ("delta_token_ids", Json.array (r.tokens.map fun token => Json.nat token.toNat))] ++
    (r.logprobs.map fun texts =>
      ("delta_logprob_json_strs", Json.array (texts.map Json.string))).toList ++
    (r.finish.map fun reason => ("finish_reason", reason.toJson)).toList

end StreamRecord

end ContinuousBatching
