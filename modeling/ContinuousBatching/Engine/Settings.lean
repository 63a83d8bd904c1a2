/-
**The settings of an engine.**

Settings are read from a text of JSON, in which any field may be left out, and are then checked:
requests must be able to run, every running request needs a sequence id, and caches need blocks.
-/

import ContinuousBatching.Cache.BlockTable
import ContinuousBatching.Json.Record
import ContinuousBatching.Json.Text

namespace ContinuousBatching

/-- The limits of an engine. -/
structure EngineSettings where
  /-- The largest number of requests that run. -/
  maxRunning : Nat
  /-- The largest number of positions of a sequence, input and generated tokens together. -/
  maxLength : Nat
  /-- The number of sequence ids. -/
  maxSequenceIds : Nat
  /-- The number of positions of a block. -/
  blockSize : Nat
  /-- The number of blocks of a cache. -/
  blockCount : Nat
  deriving DecidableEq, Repr

namespace EngineSettings

/-- What holds when nothing else is said. -/
def usual : EngineSettings where
  maxRunning := 256
  maxLength := 4096
  maxSequenceIds := 1024
  blockSize := defaultBlockSize
  blockCount := 1024

instance : Inhabited EngineSettings := ⟨usual⟩

/-- The settings as JSON. -/
def toJson (settings : EngineSettings) : String :=
  Json.object
    [("max_num_seqs", Json.nat settings.maxRunning),
      ("max_single_sequence_length", Json.nat settings.maxLength),
      ("max_sequence_ids", Json.nat settings.maxSequenceIds),
      ("block_size", Json.nat settings.blockSize),
      ("num_blocks", Json.nat settings.blockCount)]

/-- How settings are read. -/
def shape : Json.Shape EngineSettings where
  start := usual
  lenient := true
  fields :=
    [⟨"max_num_seqs", do
        let n ← Json.count
        pure fun settings => { settings with maxRunning := n }⟩,
      ⟨"max_single_sequence_length", do
        let n ← Json.count
        pure fun settings => { settings with maxLength := n }⟩,
      ⟨"max_sequence_ids", do
        let n ← Json.count
        pure fun settings => { settings with maxSequenceIds := n }⟩,
      ⟨"block_size", do
        let n ← Json.count
        pure fun settings => { settings with blockSize := n }⟩,
      ⟨"num_blocks", do
        let n ← Json.count
        pure fun settings => { settings with blockCount := n }⟩]

/-- The first reason for which the settings cannot be used. -/
def trouble? (settings : EngineSettings) : Option BadSetting :=
  if settings.maxRunning = 0 then some .noRunningSlots
  else if settings.maxLength = 0 then some .noSequenceLength
  else if settings.maxSequenceIds < settings.maxRunning then
    some (.fewerIdsThanSlots settings.maxSequenceIds settings.maxRunning)
  else if settings.blockSize = 0 ∨ settings.blockCount = 0 then some .noBlocks
  else none

/-- Turns settings down that cannot be used. -/
def validate (settings : EngineSettings) : Except Failure Unit :=
  match settings.trouble? with
  | none => .ok ()
  | some trouble => .error (.misconfigured trouble)

/-- Reads settings from a text and checks them. -/
def ofJson (text : String) : Except Failure EngineSettings := do
  let settings ← (Json.read shape.record text).mapError .malformed
  settings.validate
  return settings

/-- Reads settings from the bytes of a file, which have to be UTF-8. -/
def ofBytes (bytes : ByteArray) : Except Failure EngineSettings :=
  match String.fromUTF8? bytes with
  | some text => ofJson text
  | none => .error (.unreadable "stream did not contain valid UTF-8")

end EngineSettings

end ContinuousBatching
