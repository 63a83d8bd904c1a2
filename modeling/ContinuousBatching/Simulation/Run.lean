/-
**A simulated run.**

Requests with made-up prompts are served by replicas whose next token is a letter computed from the
whole context, so the same context always goes on in the same way. The run prints what each request
generated, in the order of the ids, then the number of steps and of preemptions, then the totals.
-/

import ContinuousBatching.Engine.Step
import ContinuousBatching.Request.Vocabulary
import ContinuousBatching.Simulation.Arguments

namespace ContinuousBatching

/-- A number computed from a context, modulo `2 ^ 32`. -/
def contextHash (context : List TokenId) : UInt32 :=
  context.foldl (fun hash token => hash * 31 + token) 17

/-- The code of the letter `a`. -/
def firstLetter : UInt32 := 97

/-- A small letter that depends on the whole context. -/
def letterAfter : NextToken := fun context =>
  -- the logprob is minus one
  .plain (firstLetter + contextHash context % 26) ⟨0xbf800000⟩

namespace Simulation

/-- The settings of the engine after the command line's changes. -/
def Arguments.adjust (arguments : Arguments) (settings : EngineSettings) : EngineSettings :=
  { settings with
    blockCount := arguments.blockCount.getD settings.blockCount
    blockSize := arguments.blockSize.getD settings.blockSize }

/-- The prompt of a request: capital letters in turn, from one that depends on the request. -/
def prompt (request length : Nat) : List TokenId :=
  (List.range length).map fun place => 65 + UInt32.ofNat ((request + place) % 26)

/-- The number of bytes that a reference to a replica takes: two words. -/
def replicaBytes : Nat := 16

/-- The replicas of a run, at least one. -/
def replicas (arguments : Arguments) (settings : EngineSettings) : Checked (List Replica) := do
  let count := max arguments.replicas 1
  Memory.holdList count replicaBytes
  (List.range count).mapM fun i => do
    let name := s!"replica-{i}"
    let cache ← PagedCache.reserve name settings.blockCount settings.blockSize letterAfter
    return .paged cache

/-- The number of bytes that a token takes. -/
def tokenBytes : Nat := 4

/-- A request of the run. -/
def submission (arguments : Arguments) (request : Nat) : Checked Submission := do
  Memory.holdList arguments.promptLength tokenBytes
  return (Submission.ofTokens (prompt request arguments.promptLength)).withSettings
    ((GenerationSettings.usual.withMaxTokens arguments.maxTokens).withIgnoreEos true)

/-- What a run printed. -/
structure Report where
  /-- The lines before the totals. -/
  lines : List String
  totals : Totals

/-- The requests that something was delivered to. -/
def recipients (delivered : List (List StreamRecord)) : List RequestId :=
  (delivered.flatten.map StreamRecord.request).eraseDups

/-- The tokens delivered to a request. -/
def tokensFor (delivered : List (List StreamRecord)) (id : RequestId) : List TokenId :=
  (delivered.flatten.filter fun r => r.request = id).flatMap StreamRecord.tokens

/-- The line of each request. -/
def requestLines (tokenizer : Tokenizer) (delivered : List (List StreamRecord)) :
    List RequestId → Except Failure (List String)
  | [] => .ok []
  | id :: rest => do
    let text ← tokenizer.decode (tokensFor delivered id)
    let later ← requestLines tokenizer delivered rest
    .ok (s!"{id}: {text}" :: later)

/-- Submits requests, the first of which has the number `request`. -/
def submitFrom (arguments : Arguments) (request : Nat) : Nat → Action Engine Unit
  | 0 => pure ()
  | count + 1 => do
    let submission ← submission arguments request
    discard (Engine.submit submission)
    submitFrom arguments (request + 1) count

/-- Submits the requests and takes steps until they are finished. -/
def serve (arguments : Arguments) : Action Engine (List StepReport) := do
  submitFrom arguments 0 arguments.requests
  Engine.runToCompletion

/-- A run, given the settings of the engine and the tokenizer. -/
def run (arguments : Arguments) (settings : EngineSettings) (tokenizer : Tokenizer) :
    Checked Report := do
  let settings := arguments.adjust settings
  let engine ← Engine.ofReplicas (← replicas arguments settings) tokenizer settings
  match serve arguments engine with
  | .error stop _ => .error stop
  | .ok steps engine => do
    let delivered := engine.cluster.delivered
    let ids := (recipients delivered).mergeSort fun a b => decide (a ≤ b)
    let lines ← (requestLines tokenizer delivered ids).mapError .refused
    let taken := steps.length
    let preempted := (steps.flatMap StepReport.preempted).length
    return {
      lines := lines ++ [s!"steps: {taken}, preemptions: {preempted}"]
      totals := engine.cluster.scheduler.totals }

/-- What a file holds, if it can be read. -/
abbrev Files := String → Option ByteArray

/-- The failure to read a file. -/
def missing (path : String) : Failure := .unreadable s!"cannot read {path}"

/-- The settings of the engine from the file that the command line names. -/
def Arguments.settings (arguments : Arguments) (files : Files) : Except Failure EngineSettings :=
  match arguments.config with
  | none => .ok .usual
  | some path =>
    match files path with
    | none => .error (missing path)
    | some bytes => EngineSettings.ofBytes bytes

/-- The tokenizer from the file that the command line names. -/
def Arguments.tokenizerOf (arguments : Arguments) (files : Files) : Except Failure Tokenizer :=
  match arguments.tokenizer with
  | none => .ok (.bytes (some usualEos))
  | some path =>
    match files path with
    | none => .error (.untranslatable (.stated (missing path).message))
    | some bytes => Tokenizer.ofBytes bytes

/-- A whole run: reads the files, then serves the requests. -/
def runFiles (arguments : Arguments) (files : Files) : Checked Report := do
  let settings ← (arguments.settings files).mapError .refused
  let tokenizer ← (arguments.tokenizerOf files).mapError .refused
  run arguments settings tokenizer

/-- How the program ends: with a report, or with a code only. -/
inductive Outcome where
  | success (report : Report)
  | help
  | failure (cause : Failure)
  | fault (kind : Fault)
  | usage

/-- The code that the program ends with. -/
def Outcome.code : Outcome → Nat
  | .success _ | .help => 0
  | .failure _ => 1
  | .usage => 2
  | .fault _ => 101

/-- What the program prints, a text for each line that is ended. -/
def Outcome.lines : Outcome → List String
  | .success report => report.lines ++ [report.totals.toJson]
  | .help => helpLines
  | .failure _ | .fault _ | .usage => []

/-- Carries a command line out. -/
def execute (commandLine : List String) (files : Files) : Outcome :=
  match Arguments.ofList commandLine with
  | .error .help => .help
  | .error .usage => .usage
  | .ok arguments =>
    match runFiles arguments files with
    | .ok report => .success report
    | .error (.refused cause) => .failure cause
    | .error (.fault kind) => .fault kind

end Simulation

end ContinuousBatching
