/-
**Chunks as JSON.**

A chunk is an object with one member, which is named after what the chunk holds: `Tokens` has a list
of tokens for a value, `Embedding` a record of two fields, neither of which may be left out.
-/

import ContinuousBatching.Json.Record
import ContinuousBatching.Json.Text
import ContinuousBatching.Request.Chunk

namespace ContinuousBatching

namespace Chunk

/-- How the kind and the length of an embedding are read. -/
def embeddingShape : Json.Shape (String × Nat) where
  start := ("", 0)
  lenient := false
  fields :=
    [⟨"kind", do
        let kind ← Json.text
        pure fun embedding => (kind, embedding.2)⟩,
      ⟨"length", do
        let length ← Json.count
        pure fun embedding => (embedding.1, length)⟩]

/-- Reads a chunk. -/
def reader : Json.Reader Chunk :=
  Json.choice
    [⟨"Tokens", none, do
        let ids ← Json.list Json.token
        pure (.tokens ids)⟩,
      ⟨"Embedding", none, do
        let (kind, length) ← embeddingShape.record
        pure (.embedding kind length)⟩]

/-- A chunk as JSON. -/
def toJson : Chunk → String
  | .tokens ids =>
    Json.object [("Tokens", Json.array (ids.map fun token => Json.nat token.toNat))]
  | .embedding kind length =>
    Json.object
      [("Embedding", Json.object [("kind", Json.string kind), ("length", Json.nat length)])]

end Chunk

/-- A list of chunks as JSON. -/
def chunksToJson (chunks : List Chunk) : String := Json.array (chunks.map Chunk.toJson)

/-- Reads a list of chunks from a text. -/
def chunksOfJson (text : String) : Except Failure (List Chunk) :=
  (Json.read (Json.list Chunk.reader) text).mapError .malformed

end ContinuousBatching
