/-
**A request on its way.**

A `Request` is what the caller asks for and never changes. While the scheduler knows it, it has a
`Ticket`: a `Lane` for each replica, the number of tokens reported so far, and how it ended. The
first lane is the primary one; the lengths of the request are counted there, and its tokens are the
ones that the caller gets.

* `Ticket.occupied` is the number of positions that the request takes in a cache: its input and
  every generated token but the last, which is only fed in the next round.
* `Ticket.lanes` lists the primary lane first; `Ticket.modifyLane` and `Ticket.mapLanes` change one
  lane or all of them.
* `Ticket.issue` makes the ticket of a request that has not begun, if memory can hold its lanes.
-/

import ContinuousBatching.Memory
import ContinuousBatching.Request.Chunk
import ContinuousBatching.Request.Settings
import ContinuousBatching.Request.Sample

namespace ContinuousBatching

/-- What a caller asks for. -/
structure Request where
  id : RequestId
  inputs : List Chunk
  settings : GenerationSettings
  deriving DecidableEq, Repr

namespace Request

/-- The number of positions that the input takes. -/
def inputLength (request : Request) : Nat := positions request.inputs

/-- A request whose input has a countable length. -/
def ofInputs (id : RequestId) (inputs : List Chunk) (settings : GenerationSettings) :
    Checked Request := do
  let _ ← totalLength inputs
  return ⟨id, inputs, settings⟩

end Request

/-- What a request has done on one replica. -/
structure Lane where
  /-- The place of the replica among all. -/
  replica : Nat
  /-- The sequence that holds the lane's positions, while there is one. -/
  sequence : Option SequenceId
  /-- The tokens generated, oldest first. -/
  committed : List Sample
  /-- What has to be fed before the next token. -/
  pending : List Chunk
  /-- Tokens that are only proposed. -/
  drafts : List Sample
  deriving DecidableEq, Repr

namespace Lane

/-- The number of bytes that a lane takes: twelve words. -/
def bytes : Nat := 96

/-- A lane that still has to be fed everything. -/
def ofInputs (replica : Nat) (inputs : List Chunk) : Lane := ⟨replica, none, [], inputs, []⟩

/-- The tokens generated. -/
def committedTokens (lane : Lane) : List TokenId := lane.committed.map Sample.token

/-- Adds a generated token. -/
def commit (lane : Lane) (sample : Sample) : Lane :=
  { lane with committed := lane.committed ++ [sample] }

/-- Adds a proposed token. -/
def draft (lane : Lane) (sample : Sample) : Lane :=
  { lane with drafts := lane.drafts ++ [sample] }

/-- Drops the last proposed tokens, as many as there are at most. -/
def dropDrafts (lane : Lane) (count : Nat) : Lane :=
  { lane with drafts := lane.drafts.take (lane.drafts.length - count) }

/-- Drops all proposed tokens. -/
def clearDrafts (lane : Lane) : Lane := { lane with drafts := [] }

/-- The lane once its pending input is fed. -/
def fed (lane : Lane) : Lane := { lane with pending := [] }

/-- Attaches the lane to a sequence, or detaches it. -/
def attach (lane : Lane) (sequence : Option SequenceId) : Lane :=
  { lane with sequence := sequence }

/-- Prepares the lane for starting over: what it generated is fed again after the input. -/
def rewound (lane : Lane) (inputs : List Chunk) : Lane :=
  { lane with drafts := [], pending := replay inputs lane.committedTokens }

end Lane

/-- A request that the scheduler knows. -/
structure Ticket where
  request : Request
  /-- The lane on the first replica. -/
  primary : Lane
  /-- The lanes on the other replicas. -/
  others : List Lane
  /-- The number of tokens reported so far. -/
  reported : Nat
  finish : Option FinishReason
  /-- Whether the caller gave the request up. -/
  abortRequested : Bool
  /-- Whether the input was fed once. -/
  prefilled : Bool
  deriving DecidableEq, Repr

namespace Ticket

/-- A request that has not begun, with a lane for each of `replicas` replicas, but at least one. -/
def ofRequest (request : Request) (replicas : Nat) : Ticket where
  request := request
  primary := .ofInputs 0 request.inputs
  others := (List.range (replicas - 1)).map fun i => .ofInputs (i + 1) request.inputs
  reported := 0
  finish := none
  abortRequested := false
  prefilled := false

/-- The ticket of a request that has not begun, with room for all its lanes. -/
def issue (request : Request) (replicas : Nat) : Checked Ticket := do
  Memory.holdList (max replicas 1) Lane.bytes
  return .ofRequest request replicas

/-- The id of the request. -/
def id (ticket : Ticket) : RequestId := ticket.request.id

/-- All lanes, the primary one first. -/
def lanes (ticket : Ticket) : List Lane := ticket.primary :: ticket.others

/-- The lane on a replica. -/
def lane? (ticket : Ticket) (replica : Nat) : Option Lane := ticket.lanes[replica]?

/-- Changes every lane. -/
def mapLanes (ticket : Ticket) (change : Lane → Lane) : Ticket :=
  { ticket with primary := change ticket.primary, others := ticket.others.map change }

/-- Changes the lane on a replica, if there is one. -/
def modifyLane (ticket : Ticket) (replica : Nat) (change : Lane → Lane) : Ticket :=
  match replica with
  | 0 => { ticket with primary := change ticket.primary }
  | i + 1 => { ticket with others := ticket.others.modify i change }

/-- Asks for the request to end. -/
def abort (ticket : Ticket) : Ticket := { ticket with abortRequested := true }

/-- Notes that the input was fed. -/
def markPrefilled (ticket : Ticket) : Ticket := { ticket with prefilled := true }

/-- The number of positions that the request takes in a cache. -/
def occupied (ticket : Ticket) : Nat :=
  ticket.request.inputLength + (ticket.primary.committed.length - 1)

/-- The number of positions that the request takes in a cache, if it is a count. -/
def occupiedLength (ticket : Ticket) : Checked Nat :=
  Count.add ticket.request.inputLength (ticket.primary.committed.length - 1)

/-- Whether a lane of the request is attached to a sequence. -/
def refersTo (ticket : Ticket) (sequence : SequenceId) : Bool :=
  ticket.lanes.any fun lane => lane.sequence = some sequence

/-- Every lane attached to a sequence, or detached. -/
def attachAll (ticket : Ticket) (sequence : Option SequenceId) : Ticket :=
  ticket.mapLanes fun lane => lane.attach sequence

/-- Every lane prepared for starting over. -/
def rewound (ticket : Ticket) : Ticket :=
  ticket.mapLanes fun lane => lane.rewound ticket.request.inputs

end Ticket

end ContinuousBatching
