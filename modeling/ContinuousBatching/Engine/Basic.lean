/-
**The engine.**

An `Engine` owns a cluster and drives it step by step. `Engine.submit` takes a new request and names
it, if the caller does not; `Engine.abort` gives a request up. Both write down what they did.
-/

import ContinuousBatching.Engine.Settings
import ContinuousBatching.Scheduler.Cluster

namespace ContinuousBatching

/-- What a caller submits. -/
structure Submission where
  /-- The id of the request, if the caller chooses it. -/
  id? : Option RequestId
  inputs : List Chunk
  settings : GenerationSettings
  deriving DecidableEq, Repr

namespace Submission

/-- A submission with the usual settings and no id. -/
def ofInputs (inputs : List Chunk) : Submission := ⟨none, inputs, .usual⟩

/-- A submission of plain tokens. -/
def ofTokens (prompt : List TokenId) : Submission := ofInputs [.tokens prompt]

/-- Chooses the id. -/
def withId (submission : Submission) (id : RequestId) : Submission :=
  { submission with id? := some id }

/-- Limits the number of tokens. -/
def withMaxTokens (submission : Submission) (n : Nat) : Submission :=
  { submission with settings := submission.settings.withMaxTokens n }

/-- Replaces the settings. -/
def withSettings (submission : Submission) (settings : GenerationSettings) : Submission :=
  { submission with settings := settings }

end Submission

/-- A cluster and what it takes to drive it. -/
structure Engine where
  cluster : Cluster
  tokenizer : Tokenizer
  settings : EngineSettings
  /-- The number of requests that the engine named. -/
  named : Nat

namespace Engine

/-- An engine without requests. It needs usable settings, a replica, and room for its sequence
ids. -/
def ofReplicas (replicas : List Replica) (tokenizer : Tokenizer) (settings : EngineSettings) :
    Checked Engine := do
  settings.validate.mapError .refused
  if replicas.isEmpty then refuse (.misconfigured .noReplica)
  let ids ← SequenceIds.reserve settings.maxSequenceIds
  return {
    cluster := .ofReplicas replicas replicas.length ids
    tokenizer := tokenizer
    settings := settings
    named := 0 }

/-- The engine, writing down from now on what happens. -/
def traced (engine : Engine) : Engine :=
  { engine with cluster := { engine.cluster with trace := some [] } }

/-- Runs an action on the cluster. -/
def onCluster {α : Type} (action : Action Cluster α) : Action Engine α :=
  action.on cluster fun cluster engine => { engine with cluster := cluster }

/-- The id that the engine gives to the request that it names next. -/
def nextName (engine : Engine) : RequestId := s!"req-" ++ toString engine.named

/-- The id of a submission. A name given by the engine is used up, whatever becomes of it. -/
def nameFor (id? : Option RequestId) : Action Engine RequestId := do
  match id? with
  | some id => return id
  | none =>
    let engine ← get
    set { engine with named := engine.named + 1 }
    return engine.nextName

/-- Takes a new request; it waits. -/
def submit (submission : Submission) : Action Engine RequestId := do
  let id ← nameFor submission.id?
  let request ← Request.ofInputs id submission.inputs submission.settings
  onCluster do
    Cluster.onScheduler (Scheduler.add request)
    Cluster.record id .requested
  return id

/-- Gives a request up. -/
def abort (id : RequestId) : Action Engine Unit :=
  onCluster do
    Cluster.onScheduler (Scheduler.abort id)
    Cluster.record id .aborted

/-- Whether there is a request. -/
def hasPending (engine : Engine) : Bool := engine.cluster.scheduler.hasPending

end Engine

end ContinuousBatching
