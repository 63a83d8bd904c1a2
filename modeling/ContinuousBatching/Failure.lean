/-
**Why a call does not succeed.**

A call can end in two ways other than with a value.

* It is *refused*: the caller gets a `Failure`, which names the cause, and the state lives on.
  `Failure.message` is the text shown for a cause and `Failure.isFatal` says whether the step loop
  has to stop: bookkeeping that contradicts itself and resources that an earlier capacity check
  should have kept in hand are fatal, trouble at the edges (configuration, text, files) is not.
* It *faults*: a count leaves its 64 bits, a length is divided by zero, a position lies outside its
  list, memory cannot hold what is asked for, or an internal assertion is broken. Nothing can be
  said about the state after a fault.

`Stop` joins the two, `Checked` is a pure computation that may stop, and `Action` is one that also
changes a state. An action that is refused keeps every change it made before the refusal.
-/

namespace ContinuousBatching

/-- The name a caller gives to a request. -/
abbrev RequestId := String

/-- The number under which a sequence is registered with every replica. -/
abbrev SequenceId := Nat

/-- A token of the vocabulary. -/
abbrev TokenId := UInt32

/-- A computation that cannot continue. -/
inductive Fault where
  /-- A count needs more than 64 bits. -/
  | overflow
  /-- A length is divided by a block size of zero. -/
  | divisionByZero
  /-- A position lies outside its list. -/
  | outOfRange
  /-- Memory cannot hold a list or a table of the size asked for. -/
  | outOfMemory
  /-- An id is given back while a request still refers to it. -/
  | assertion
  deriving DecidableEq, Repr

/-- What is wrong with a text that should be JSON of a certain shape. -/
inductive Malformed where
  /-- The text ends inside a value. -/
  | truncated
  /-- The text is not JSON. -/
  | illFormed
  /-- The text is JSON, but not of the expected type. -/
  | illTyped
  deriving DecidableEq, Repr

/-- A contradiction in the scheduler's own bookkeeping. -/
inductive Violation where
  | laneMissing (request : RequestId) (replica : Nat)
  | releaseTooLarge (released occupied : Nat)
  | prefillUnfinished (request : RequestId) (replica pending committed : Nat)
  | runningUnregistered (request : RequestId)
  | admittedUnregistered (request : RequestId)
  | runningUncommitted (request : RequestId)
  | runningPending (request : RequestId)
  | queuedTwice (request : RequestId)
  | queuedUnknown (request : RequestId)
  | queueSizes (requests queued : Nat)
  | waitingDrafts (request : RequestId)
  | waitingWithoutInputs (request : RequestId)
  | sequenceNotOwned (sequence : SequenceId) (request : RequestId)
  | sequenceCounts (live referenced : Nat)
  | occupiedMismatch (occupied expected : Nat)
  /-- Any other contradiction, in the words of whoever found it. -/
  | stated (text : String)
  deriving DecidableEq, Repr

/-- Why text could not be made from tokens, or a request from text. -/
inductive TextTrouble where
  | unknownToken (token : TokenId)
  | emptyPrompt (request : RequestId)
  /-- Any other trouble, in the words of whoever found it. -/
  | stated (text : String)
  deriving DecidableEq, Repr

/-- A setting that cannot be used. -/
inductive BadSetting where
  | noRunningSlots
  | noSequenceLength
  | fewerIdsThanSlots (ids slots : Nat)
  | noBlocks
  | noReplica
  | logFormat (text : String)
  /-- Any other bad setting, in the words of whoever found it. -/
  | stated (text : String)
  deriving DecidableEq, Repr

/-- The cause for which a call is refused. -/
inductive Failure where
  | outOfBlocks
  | sequenceIdsExhausted (capacity : Nat)
  | sequenceIdNotLive (sequence : SequenceId)
  | sequenceNotFound (sequence : SequenceId)
  | sequenceExists (sequence : SequenceId)
  | requestNotFound (request : RequestId)
  | duplicateRequest (request : RequestId)
  | notRunning (request : RequestId)
  | nothingToPreempt
  | inconsistent (violation : Violation)
  | untranslatable (trouble : TextTrouble)
  | misconfigured (setting : BadSetting)
  | unreadable (text : String)
  | malformed (trouble : Malformed)
  deriving DecidableEq, Repr

/-- What is wrong, in words. -/
def Malformed.message : Malformed → String
  | .truncated => "the text ends inside a value"
  | .illFormed => "the text is not well formed"
  | .illTyped => "the value has the wrong type"

/-- The contradiction, in words. -/
def Violation.message : Violation → String
  | .laneMissing request replica => s!"request {request} has no model state {replica}"
  | .releaseTooLarge released occupied =>
    s!"releasing {released} positions with only {occupied} occupied"
  | .prefillUnfinished request replica pending committed =>
    s!"preempting request {request}: model {replica} has {pending} pending inputs and " ++
      s!"{committed} committed tokens"
  | .runningUnregistered request => s!"running request {request} has no sequence id"
  | .admittedUnregistered request => s!"admitted request {request} has no sequence id"
  | .runningUncommitted request => s!"running request {request} has no committed tokens"
  | .runningPending request => s!"running request {request} has pending inputs"
  | .queuedTwice request => s!"request {request} queued twice"
  | .queuedUnknown request => s!"queued request {request} has no state"
  | .queueSizes requests queued => s!"{requests} request states but {queued} queued requests"
  | .waitingDrafts request => s!"waiting request {request} has draft tokens"
  | .waitingWithoutInputs request => s!"waiting request {request} has no inputs"
  | .sequenceNotOwned sequence request =>
    s!"sequence id {sequence} of request {request} is shared or not live"
  | .sequenceCounts live referenced =>
    s!"{live} live sequence ids but {referenced} referenced"
  | .occupiedMismatch occupied expected =>
    s!"occupied length {occupied} does not match running requests ({expected})"
  | .stated text => text

/-- The trouble, in words. -/
def TextTrouble.message : TextTrouble → String
  | .unknownToken token => s!"unknown token id {token}"
  | .emptyPrompt request => s!"request {request} has an empty prompt"
  | .stated text => text

/-- The bad setting, in words. -/
def BadSetting.message : BadSetting → String
  | .noRunningSlots => "max_num_seqs must be positive"
  | .noSequenceLength => "max_single_sequence_length must be positive"
  | .fewerIdsThanSlots ids slots =>
    s!"max_sequence_ids ({ids}) must be at least max_num_seqs ({slots})"
  | .noBlocks => "KV block size and count must be positive"
  | .noReplica => "engine needs at least one model"
  | .logFormat text => s!"invalid log format: {text}"
  | .stated text => text

/-- The text shown to whoever made the call. -/
def Failure.message : Failure → String
  | .outOfBlocks => "out of KV cache blocks"
  | .sequenceIdsExhausted capacity => s!"sequence id space exhausted ({capacity} ids live)"
  | .sequenceIdNotLive sequence => s!"sequence id {sequence} is not live"
  | .sequenceNotFound sequence => s!"sequence {sequence} not found in model"
  | .sequenceExists sequence => s!"sequence {sequence} already registered in model"
  | .requestNotFound request => s!"request {request} not found"
  | .duplicateRequest request => s!"request {request} already exists"
  | .notRunning request => s!"request {request} is not in the running queue"
  | .nothingToPreempt => "no running request to preempt"
  | .inconsistent violation => "scheduler invariant violated: " ++ violation.message
  | .untranslatable trouble => "tokenization error: " ++ trouble.message
  | .misconfigured setting => "configuration error: " ++ setting.message
  | .unreadable text => "io error: " ++ text
  | .malformed trouble => "json error: " ++ trouble.message

/-- Whether the step loop has to stop: what the scheduler promised itself does not hold. A request
that is merely a duplicate, a text, a setting or a file is no such promise. -/
def Failure.isFatal : Failure → Bool
  | .duplicateRequest _ | .untranslatable _ | .misconfigured _ | .unreadable _ | .malformed _ =>
    false
  | _ => true

/-- The way in which a call ends without a value. -/
inductive Stop where
  | refused (cause : Failure)
  | fault (kind : Fault)
  deriving DecidableEq, Repr

/-- A value, or the reason why there is none. -/
abbrev Checked (α : Type) := Except Stop α

/-- A computation on a state that may be refused, keeping the changes made so far, or fault. -/
abbrev Action (σ α : Type) := EStateM Stop σ α

/-- Refuses a call. -/
def refuse {m : Type → Type} [MonadExceptOf Stop m] {α : Type} (cause : Failure) : m α :=
  throw (.refused cause)

/-- Ends a computation by a fault. -/
def faultWith {m : Type → Type} [MonadExceptOf Stop m] {α : Type} (kind : Fault) : m α :=
  throw (.fault kind)

/-- A checked value is an action that leaves the state alone. -/
def Checked.toAction {σ α : Type} : Checked α → Action σ α
  | .ok value => pure value
  | .error stop => throw stop

instance {σ : Type} : MonadLift (Except Stop) (EStateM Stop σ) where
  monadLift := Checked.toAction

/-- Runs an action on a part of a larger state. -/
def Action.on {σ τ α : Type} (part : σ → τ) (put : τ → σ → σ) (action : Action τ α) :
    Action σ α :=
  fun s => match action (part s) with
    | .ok value t => .ok value (put t s)
    | .error stop t => .error stop (put t s)

/-- Goes on with `other`, in the state that the action has left behind, if the action was refused
for a cause that is not fatal. -/
def Action.unlessFatal {σ α : Type} (action other : Action σ α) : Action σ α := fun s =>
  match action s with
  | .error (.refused cause) t => if cause.isFatal then .error (.refused cause) t else other t
  | ended => ended

/-- The value and the state that an action ends with, or the reason why it was stopped. -/
def Action.result {σ α : Type} (action : Action σ α) (s : σ) : Checked (α × σ) :=
  match action s with
  | .ok value t => .ok (value, t)
  | .error stop _ => .error stop

end ContinuousBatching
