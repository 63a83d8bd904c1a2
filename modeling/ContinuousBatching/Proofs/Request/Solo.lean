/-
**What a lane generates, and what it is fed.**

`solo nextToken prompt n` are the first `n` samples that a model generates for a prompt when it is
fed nothing but the prompt and its own tokens. A lane of a served request is fed its input at once,
then one token at a time; after a preemption it is fed everything again. All of that is `Lane.next`,
the chunks that have to be fed before the next sample, and it always completes the context of the
lane's sequence to the prompt and the tokens committed (`Lane.Follows`).

* `Lane.Follows.ofPrimed`: a lane that waits follows a sequence without blocks;
* `Lane.Follows.advance`, `Lane.Alone.advance`: feeding `Lane.next` and committing the sample keeps
  the lane on its sequence and on its stream.
-/

import ContinuousBatching.Proofs.Cache.Paged
import ContinuousBatching.Proofs.Request.Ticket

namespace ContinuousBatching

/-- The first samples that a model generates for a prompt, fed nothing else. -/
def solo (nextToken : NextToken) (prompt : List TokenId) : Nat → List Sample
  | 0 => []
  | n + 1 =>
    solo nextToken prompt n ++
      [nextToken (prompt ++ (solo nextToken prompt n).map Sample.token)]

section Solo

variable {nextToken : NextToken} {prompt : List TokenId}

@[simp]
theorem length_solo (n : Nat) : (solo nextToken prompt n).length = n := by
  induction n with
  | zero => rfl
  | succ n ih => rw [solo, List.length_append, ih, List.length_singleton]

end Solo

namespace Lane

variable {lane : Lane} {request : Request} {written : PagedSequence} {nextToken : NextToken}

/-- What has to be fed before the next sample: the pending input, or else the last token. -/
def next (lane : Lane) : List Chunk :=
  if lane.pending.isEmpty then
    match lane.committed.getLast? with
    | none => []
    | some last => [.tokens [last.token]]
  else lane.pending

/-- The lane was fed its input and has a token. -/
structure Drained (lane : Lane) : Prop where
  pending : lane.pending = []
  committed : lane.committed ≠ []

/-- The lane is prepared for being fed everything, the input and what it generated. -/
def Primed (lane : Lane) (request : Request) : Prop :=
  lane.pending =
    if lane.committed.isEmpty then request.inputs
    else replay request.inputs lane.committedTokens

/-- The samples of the lane are those of its model alone, and nothing is only proposed. -/
structure Alone (lane : Lane) (request : Request) (nextToken : NextToken) : Prop where
  committed : lane.committed = solo nextToken (tokenIds request.inputs) lane.committed.length
  drafts : lane.drafts = []

/-- What was written and what is fed next make up the prompt and the tokens committed. -/
structure Follows (lane : Lane) (request : Request) (written : PagedSequence) : Prop where
  context : written.context ++ tokenIds lane.next =
    tokenIds request.inputs ++ lane.committedTokens
  length : written.table.length + positions lane.next =
    request.inputLength + lane.committed.length

/-- The lane after its next chunks were fed and yielded a sample. -/
def advanced (lane : Lane) (sample : Sample) : Lane := lane.fed.commit sample

@[simp]
theorem length_advanced (sample : Sample) :
    (lane.advanced sample).committed.length = lane.committed.length + 1 :=
  List.length_append

theorem committedTokens_advanced (sample : Sample) :
    (lane.advanced sample).committedTokens = lane.committedTokens ++ [sample.token] := by
  show (lane.committed ++ [sample]).map Sample.token = _
  rw [List.map_append]
  rfl

theorem drained_advanced (lane : Lane) (sample : Sample) : (lane.advanced sample).Drained where
  pending := rfl
  committed := List.append_ne_nil_of_right_ne_nil _ (List.cons_ne_nil _ _)

theorem next_of_pending (pending : lane.pending ≠ []) : lane.next = lane.pending := by
  have filled : lane.pending.isEmpty = false := by
    rwa [List.isEmpty_eq_false_iff]
  rw [next, filled]
  rfl

theorem next_of_last {last : Sample} (pending : lane.pending = [])
    (final : lane.committed.getLast? = some last) : lane.next = [.tokens [last.token]] := by
  rw [next, pending, final]
  rfl

theorem Drained.last (drained : lane.Drained) :
    ∃ last, lane.committed.getLast? = some last ∧ lane.next = [.tokens [last.token]] := by
  refine ⟨lane.committed.getLast drained.committed,
    List.getLast?_eq_some_getLast drained.committed, ?_⟩
  exact next_of_last drained.pending (List.getLast?_eq_some_getLast drained.committed)

/-- A drained lane is fed one position. -/
theorem Drained.positions_next (drained : lane.Drained) : positions lane.next = 1 := by
  obtain ⟨last, _, next⟩ := drained.last
  rw [next]
  rfl

theorem next_advanced (sample : Sample) :
    (lane.advanced sample).next = [.tokens [sample.token]] :=
  next_of_last rfl List.getLast?_concat

/-! ### Waiting lanes -/

theorem Primed.positions (primed : lane.Primed request) :
    positions lane.pending = request.inputLength + lane.committed.length := by
  rw [primed]
  by_cases fresh : lane.committed = []
  · rw [fresh]
    rfl
  · rw [if_neg (by rwa [List.isEmpty_iff]), positions_replay, committedTokens, List.length_map]
    rfl

theorem Primed.tokenIds (primed : lane.Primed request) :
    tokenIds lane.pending = tokenIds request.inputs ++ lane.committedTokens := by
  rw [primed]
  by_cases fresh : lane.committed = []
  · rw [committedTokens, fresh]
    exact (List.append_nil _).symm
  · rw [if_neg (by rwa [List.isEmpty_iff]), tokenIds_replay]

theorem Primed.pending_ne_nil (primed : lane.Primed request) (nonempty : request.inputLength ≠ 0) :
    lane.pending ≠ [] := by
  intro empty
  have length := primed.positions
  rw [empty] at length
  exact nonempty (Nat.eq_zero_of_add_eq_zero_right length.symm)

theorem primed_rewound (lane : Lane) (request : Request) (tokens : lane.committed ≠ []) :
    (lane.rewound request.inputs).Primed request := by
  have filled : lane.committed.isEmpty = false := by
    rwa [List.isEmpty_eq_false_iff]
  show replay request.inputs lane.committedTokens =
    if lane.committed.isEmpty then request.inputs
    else replay request.inputs lane.committedTokens
  rw [filled]
  rfl

/-- A lane that waits follows a sequence without blocks. -/
theorem Follows.ofPrimed (primed : lane.Primed request) (nonempty : request.inputLength ≠ 0)
    (blockSize : Nat) : lane.Follows request ⟨.ofBlockSize blockSize, []⟩ := by
  have next := next_of_pending (primed.pending_ne_nil nonempty)
  constructor
  · rw [next, primed.tokenIds]
    rfl
  · rw [next, primed.positions]
    exact Nat.zero_add _

/-! ### Feeding -/

theorem Follows.advance (follows : lane.Follows request written) (blocks : List BlockId)
    (sample : Sample) : (lane.advanced sample).Follows request (written.fed blocks lane.next) := by
  constructor
  · rw [next_advanced, committedTokens_advanced, ← List.append_assoc, ← follows.context]
    rfl
  · rw [next_advanced, length_advanced, ← Nat.add_assoc, ← follows.length]
    rfl

theorem Alone.advance (alone : lane.Alone request nextToken) {sample : Sample}
    (sampled : sample = nextToken (tokenIds request.inputs ++ lane.committedTokens)) :
    (lane.advanced sample).Alone request nextToken := by
  refine ⟨?_, alone.drafts⟩
  rw [length_advanced, solo, ← alone.committed, sampled]
  rfl

/-- The sample that the sequence of a lane yields is the one that the model generates next. -/
theorem Follows.sample (follows : lane.Follows request written) (nextToken : NextToken) :
    nextToken (written.context ++ tokenIds lane.next) =
      nextToken (tokenIds request.inputs ++ lane.committedTokens) := by
  rw [follows.context]

end Lane

/-- A request occupies no less when one of its lanes advances. -/
theorem Ticket.occupied_le_advanced (ticket : Ticket) (place : Nat) (sample : Sample) :
    ticket.occupied ≤ (ticket.modifyLane place fun lane => lane.advanced sample).occupied := by
  cases place with
  | zero =>
      show ticket.request.inputLength + (ticket.primary.committed.length - 1) ≤
        ticket.request.inputLength + ((ticket.primary.committed ++ [sample]).length - 1)
      rw [List.length_append, List.length_singleton]
      omega
  | succ i => exact Nat.le_refl _

end ContinuousBatching
