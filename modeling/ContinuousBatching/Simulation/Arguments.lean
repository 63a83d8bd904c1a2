/-
**The command line.**

Every option takes one value and may be given once. A long option is followed by its value or by an
equals sign and the value; a short one also takes the value without anything between them. Nothing
else may stand on the command line. The arguments are looked at from left to right, and the first
one that is wrong, or asks for help, decides.
-/

import ContinuousBatching.Count

namespace ContinuousBatching

/-- How messages about the run are written. -/
inductive LogFormat where
  /-- For human readers. -/
  | human
  /-- One JSON object for each message. -/
  | json
  deriving DecidableEq, Repr

namespace LogFormat

/-- The name of a format. -/
def name : LogFormat → String
  | .human => "human"
  | .json => "json"

/-- Reads the name of a format; the case of ASCII letters does not matter. -/
def ofText (text : String) : Except Failure LogFormat :=
  let lower := text.map Char.toLower
  if lower = "human" ∨ lower = "text" then .ok .human
  else if lower = "json" then .ok .json
  else .error (.misconfigured (.logFormat lower))

end LogFormat

namespace Simulation

/-- What the command line asks for. -/
structure Arguments where
  /-- The file with the settings of the engine. -/
  config : Option String
  /-- The file with the tokenizer. -/
  tokenizer : Option String
  /-- The number of requests. -/
  requests : Nat
  /-- The number of tokens of each prompt. -/
  promptLength : Nat
  /-- The largest number of tokens generated for each request. -/
  maxTokens : Nat
  /-- The number of blocks of each cache, if it differs from the settings. -/
  blockCount : Option Nat
  /-- The number of positions of a block, if it differs from the settings. -/
  blockSize : Option Nat
  /-- The number of replicas. -/
  replicas : Nat
  /-- The format of messages, if it is chosen. -/
  logFormat : Option LogFormat
  deriving DecidableEq, Repr

/-- What holds when nothing else is said. -/
def Arguments.usual : Arguments where
  config := none
  tokenizer := none
  requests := 8
  promptLength := 32
  maxTokens := 64
  blockCount := none
  blockSize := none
  replicas := 1
  logFormat := none

/-- The options. -/
inductive Flag where
  | config
  | tokenizer
  | requests
  | promptLength
  | maxTokens
  | blockCount
  | blockSize
  | replicas
  | logFormat
  deriving DecidableEq, Repr

namespace Flag

/-- All options. -/
def all : List Flag :=
  [.config, .tokenizer, .requests, .promptLength, .maxTokens, .blockCount, .blockSize, .replicas,
    .logFormat]

/-- The long name of an option. -/
def long : Flag → String
  | .config => "config"
  | .tokenizer => "tokenizer"
  | .requests => "num-requests"
  | .promptLength => "prompt-len"
  | .maxTokens => "max-tokens"
  | .blockCount => "num-blocks"
  | .blockSize => "block-size"
  | .replicas => "replicas"
  | .logFormat => "log-format"

/-- The short name of an option, if it has one. -/
def short? : Flag → Option Char
  | .config => some 'c'
  | .tokenizer => some 't'
  | .requests => some 'n'
  | _ => none

/-- What an option is for. -/
def purpose : Flag → String
  | .config => "Engine config JSON file (defaults are used when omitted)"
  | .tokenizer => "tokenizer.json used to render outputs (byte-level when omitted)"
  | .requests => "Number of requests to submit"
  | .promptLength => "Prompt length in tokens"
  | .maxTokens => "Maximum tokens to generate per request"
  | .blockCount => "Override the number of KV blocks per model"
  | .blockSize => "Override the KV block size"
  | .replicas => "Number of model replicas"
  | .logFormat => "Log format: human or json"

/-- The number that holds when an option is not given. -/
def usual? : Flag → Option Nat
  | .requests => some Arguments.usual.requests
  | .promptLength => some Arguments.usual.promptLength
  | .maxTokens => some Arguments.usual.maxTokens
  | .replicas => some Arguments.usual.replicas
  | _ => none

/-- What stands for the value of an option: its name in capital letters. -/
def placeholder (flag : Flag) : String :=
  "<" ++ flag.long.map (fun c => if c = '-' then '_' else c.toUpper) ++ ">"

/-- How an option is written. -/
def synopsis (flag : Flag) : String :=
  let short :=
    match flag.short? with
    | some c => "-" ++ String.singleton c ++ ", "
    | none => "    "
  short ++ "--" ++ flag.long ++ " " ++ flag.placeholder

/-- What an option is for, and what holds when it is not given. -/
def description (flag : Flag) : String :=
  match flag.usual? with
  | some n => flag.purpose ++ s!" [default: {n}]"
  | none => flag.purpose

end Flag

/-- How each option is written, and what it is for. -/
def helpEntries : List (String × String) :=
  Flag.all.map (fun flag => (flag.synopsis, flag.description)) ++ [("-h, --help", "Print help")]

/-- The width of the widest synopsis. -/
def synopsisWidth : Nat := helpEntries.foldl (fun width entry => max width entry.1.length) 0

/-- A line of the help text: the synopsis, filled up with blanks, and the description. -/
def helpLine (entry : String × String) : String :=
  "  " ++ entry.1.pushn ' ' (synopsisWidth - entry.1.length) ++ "  " ++ entry.2

/-- What is printed when help is asked for. -/
def helpLines : List String :=
  ["Simulate continuous batching over a paged KV model", "", "Usage: nano-serve [OPTIONS]", "",
    "Options:"] ++ helpEntries.map helpLine

/-- Why a command line is not carried out. -/
inductive Refusal where
  /-- Help is asked for. -/
  | help
  /-- The command line is wrong. -/
  | usage
  deriving DecidableEq, Repr

/-- A count: decimal digits, perhaps after a plus sign, below `Count.limit`. -/
def count? (text : String) : Option Nat :=
  let digits :=
    match text.toList with
    | '+' :: rest => rest
    | digits => digits
  if digits.isEmpty || !digits.all Char.isDigit then none
  else
    let n := digits.foldl (fun n c => n * 10 + (c.toNat - '0'.toNat)) 0
    if n < Count.limit then some n else none

/-- The name of a file, which has at least a character. -/
def path? (text : String) : Option String := if text.isEmpty then none else some text

/-- Notes the value of an option, if it is one that the option can take. -/
def Arguments.assign? (arguments : Arguments) (value : String) : Flag → Option Arguments
  | .config => (path? value).map fun path => { arguments with config := some path }
  | .tokenizer => (path? value).map fun path => { arguments with tokenizer := some path }
  | .requests => (count? value).map fun n => { arguments with requests := n }
  | .promptLength => (count? value).map fun n => { arguments with promptLength := n }
  | .maxTokens => (count? value).map fun n => { arguments with maxTokens := n }
  | .blockCount => (count? value).map fun n => { arguments with blockCount := some n }
  | .blockSize => (count? value).map fun n => { arguments with blockSize := some n }
  | .replicas => (count? value).map fun n => { arguments with replicas := n }
  | .logFormat =>
    (LogFormat.ofText value).toOption.map fun format =>
      { arguments with logFormat := some format }

/-- What an argument is. -/
inductive Word where
  /-- Two hyphens: no option follows. -/
  | separator
  | help
  /-- An option, with its value if that is part of the argument. -/
  | option (flag : Flag) (value : Option String)
  /-- An option that there is none of. -/
  | unknown
  /-- Anything else. -/
  | plain
  deriving DecidableEq, Repr

/-- What an argument that begins with two hyphens is, given the rest of it. -/
def longWord (text : List Char) : Word :=
  let name := String.ofList (text.takeWhile fun c => c ≠ '=')
  let value : Option String :=
    match text.dropWhile fun c => c ≠ '=' with
    | [] => none
    | _ :: value => some (String.ofList value)
  if name = "help" then
    match value with
    | none => .help
    | some _ => .unknown
  else
    match Flag.all.find? fun flag => flag.long = name with
    | some flag => .option flag value
    | none => .unknown

/-- What an argument that begins with one hyphen is, given the rest of it. -/
def shortWord (c : Char) (rest : List Char) : Word :=
  if c = 'h' then .help
  else
    match Flag.all.find? fun flag => flag.short? = some c, rest with
    | none, _ => .unknown
    | some flag, [] => .option flag none
    | some flag, '=' :: value => .option flag (some (String.ofList value))
    | some flag, value => .option flag (some (String.ofList value))

/-- What an argument is. -/
def Word.ofArgument (argument : String) : Word :=
  match argument.toList with
  | ['-', '-'] => .separator
  | '-' :: '-' :: rest => longWord rest
  | '-' :: c :: rest => shortWord c rest
  | _ => .plain

/-- Notes the value of an option that was not given before. -/
def assignOnce (arguments : Arguments) (seen : List Flag) (flag : Flag) (value : String) :
    Except Refusal Arguments :=
  if flag ∈ seen then .error .usage
  else
    match arguments.assign? value flag with
    | some next => .ok next
    | none => .error .usage

/-- Reads arguments from left to right; `seen` are the options given before. -/
def readArguments (arguments : Arguments) (seen : List Flag) :
    List String → Except Refusal Arguments
  | [] => .ok arguments
  | argument :: rest =>
    match Word.ofArgument argument with
    | .separator => if rest.isEmpty then .ok arguments else .error .usage
    | .help => .error .help
    | .unknown | .plain => .error .usage
    | .option flag (some value) => do
      let next ← assignOnce arguments seen flag value
      readArguments next (flag :: seen) rest
    | .option flag none =>
      match rest with
      | [] => .error .usage
      | value :: rest =>
        match Word.ofArgument value with
        | .plain => do
          let next ← assignOnce arguments seen flag value
          readArguments next (flag :: seen) rest
        | _ => .error .usage

/-- Reads a command line. -/
def Arguments.ofList (arguments : List String) : Except Refusal Arguments :=
  readArguments .usual [] arguments

end Simulation

end ContinuousBatching
