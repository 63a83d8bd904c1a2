/-
**What a request feeds to a model.**

An input is a list of chunks: plain tokens, or an embedding of a known length that another encoder
has to compute. Only tokens leave a trace in the context of a sequence, but both take positions.

* `replay`: the chunks followed by tokens already generated, which join a trailing chunk of tokens
  if there is one; `tokenIds_replay` and `positions_replay` say that nothing is lost.
-/

import ContinuousBatching.Count

namespace ContinuousBatching

/-- A piece of input. -/
inductive Chunk where
  | tokens (ids : List TokenId)
  | embedding (kind : String) (length : Nat)
  deriving DecidableEq, Repr

namespace Chunk

/-- The number of positions that a chunk takes. -/
def length : Chunk → Nat
  | .tokens ids => ids.length
  | .embedding _ length => length

/-- Whether a chunk takes no position. -/
def isEmpty (chunk : Chunk) : Bool := chunk.length == 0

/-- The tokens of a chunk, if it has tokens. -/
def tokens? : Chunk → Option (List TokenId)
  | .tokens ids => some ids
  | .embedding _ _ => none

/-- The tokens that a chunk leaves in a context. -/
def context : Chunk → List TokenId
  | .tokens ids => ids
  | .embedding _ _ => []

end Chunk

/-- The number of positions of an input. -/
def positions (chunks : List Chunk) : Nat := (chunks.map Chunk.length).foldr (· + ·) 0

/-- The number of positions of an input, if it is a count. -/
def totalLength (chunks : List Chunk) : Checked Nat := Count.sum (chunks.map Chunk.length)

/-- The tokens of an input, in order. -/
def tokenIds (chunks : List Chunk) : List TokenId := chunks.flatMap Chunk.context

/-- `chunks` followed by tokens: they join the last chunk if it has tokens, and form a chunk of
their own otherwise. -/
def replay : List Chunk → List TokenId → List Chunk
  | [], ids => [.tokens ids]
  | [.tokens last], ids => [.tokens (last ++ ids)]
  | [.embedding kind length], ids => [.embedding kind length, .tokens ids]
  | chunk :: next :: rest, ids => chunk :: replay (next :: rest) ids

/-- A replay shows the model the tokens of the chunks, then the given ones. -/
@[simp]
theorem tokenIds_replay (chunks : List Chunk) (ids : List TokenId) :
    tokenIds (replay chunks ids) = tokenIds chunks ++ ids := by
  fun_induction replay chunks ids with
  | case1 ids => simp [tokenIds, Chunk.context]
  | case2 last ids => simp [tokenIds, Chunk.context]
  | case3 kind length ids => simp [tokenIds, Chunk.context]
  | case4 chunk next rest ids ih =>
    simp only [tokenIds, List.flatMap_cons, List.append_assoc] at ih ⊢
    rw [ih]

/-- A replay takes a position more for each token. -/
@[simp]
theorem positions_replay (chunks : List Chunk) (ids : List TokenId) :
    positions (replay chunks ids) = positions chunks + ids.length := by
  fun_induction replay chunks ids with
  | case1 ids => simp [positions, Chunk.length]
  | case2 last ids => simp [positions, Chunk.length]
  | case3 kind length ids => simp [positions, Chunk.length]
  | case4 chunk next rest ids ih =>
    simp only [positions, List.map_cons, List.foldr_cons] at ih ⊢
    omega

end ContinuousBatching
