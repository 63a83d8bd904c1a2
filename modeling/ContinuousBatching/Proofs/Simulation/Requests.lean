/-
**The requests of a simulated run.**

Nothing but its length ends a request of a run: it has no stop tokens and no stop texts, and the end
of a sequence is ignored. So each of them generates the same number of tokens, whatever its prompt
is (`Arguments.generated`), and these are small letters.

* `Arguments.judgement_eq`, `Arguments.concludes`: a request ends when the longest sequence is full
  or it has all the tokens that it may generate, and it generates one token at least;
* `letterAfter_token`, `decode_letters`: the tokens that it generates, and what is printed of them;
* `requestName_injective`: different requests have different names.
-/

import ContinuousBatching.Proofs.Engine.Course
import ContinuousBatching.Proofs.Engine.Naming
import ContinuousBatching.Simulation.Run

namespace ContinuousBatching

/-- The next token is a small letter. -/
theorem letterAfter_token (context : List TokenId) :
    97 ≤ (letterAfter context).token.toNat ∧ (letterAfter context).token.toNat < 123 := by
  have token : (letterAfter context).token.toNat = 97 + (contextHash context).toNat % 26 := by
    show (firstLetter + contextHash context % 26).toNat = _
    rw [UInt32.toNat_add, UInt32.toNat_mod]
    show (97 + (contextHash context).toNat % 26) % 2 ^ 32 = _
    omega
  omega

/-- Whatever a model generates was chosen after some context. -/
theorem exists_context_of_mem_solo {nextToken : NextToken} {tokens : List TokenId} {n : Nat}
    {sample : Sample} (member : sample ∈ solo nextToken tokens n) :
    ∃ context, sample = nextToken context := by
  induction n with
  | zero => cases member
  | succ n ih =>
      rw [solo] at member
      rcases List.mem_append.mp member with earlier | now
      · exact ih earlier
      · exact ⟨_, List.mem_singleton.mp now⟩

/-- Only small letters are generated. -/
theorem letter_of_mem_solo {tokens : List TokenId} {n : Nat} {sample : Sample}
    (member : sample ∈ solo letterAfter tokens n) :
    97 ≤ sample.token.toNat ∧ sample.token.toNat < 123 := by
  obtain ⟨context, rfl⟩ := exists_context_of_mem_solo member
  exact letterAfter_token context

/-- The text of a byte. -/
theorem Tokenizer.toList_byteText {token : TokenId} (byte : token.toNat < 256) :
    (byteText token).toList = [Char.ofNat token.toNat] := by
  rw [byteText, if_pos byte, String.toList_singleton]

namespace Simulation

/-- The name of a request of a run. -/
def requestName (request : Nat) : RequestId := s!"req-" ++ toString request

/-- Different requests have different names. -/
theorem requestName_injective : Function.Injective requestName := Engine.numbered_injective

/-! ### What is printed -/

/-- The letters that the model generates for the prompt of a request. -/
def letters (request length n : Nat) : String :=
  String.ofList ((solo letterAfter (prompt request length) n).map fun sample =>
    Char.ofNat sample.token.toNat)

/-- **The text of a request** are its letters. -/
theorem decode_letters (request length n : Nat) :
    (Tokenizer.bytes (some usualEos)).decode
      ((solo letterAfter (prompt request length) n).map Sample.token) =
        .ok (letters request length n) := by
  have kept : (((solo letterAfter (prompt request length) n).map Sample.token).filter fun token =>
      some token ≠ some usualEos) = (solo letterAfter (prompt request length) n).map Sample.token :=
    List.filter_eq_self.mpr fun token member => by
      obtain ⟨sample, there, rfl⟩ := List.mem_map.mp member
      have letter := letter_of_mem_solo there
      refine decide_eq_true fun ends => ?_
      have zero : sample.token.toNat = 0 := congrArg UInt32.toNat (Option.some_inj.mp ends)
      omega
  refine congrArg Except.ok ?_
  rw [kept, letters, ← String.toList_inj, String.toList_join, String.toList_ofList, List.map_map,
    List.flatMap_map, List.map_eq_flatMap]
  refine List.flatMap_congr fun sample member => Tokenizer.toList_byteText ?_
  exact Nat.lt_trans (letter_of_mem_solo member).2 (by decide)

example : letters 0 3 6 = "ntdxnl" := by decide +kernel

/-! ### How long a request goes on -/

namespace Arguments

/-- How the requests of a run are generated. -/
def generation (arguments : Arguments) : GenerationSettings :=
  (GenerationSettings.usual.withMaxTokens arguments.maxTokens).withIgnoreEos true

/-- A request of a run. -/
def request (arguments : Arguments) (i : Nat) : Request :=
  ⟨requestName i, [.tokens (prompt i arguments.promptLength)], arguments.generation⟩

/-- The number of tokens that each request of a run generates. -/
def generated (arguments : Arguments) (settings : EngineSettings) : Nat :=
  max 1 (min arguments.maxTokens (settings.maxLength - arguments.promptLength))

/-- What a run works with. -/
def premises (arguments : Arguments) (settings : EngineSettings)
    (divided : 0 < settings.blockSize) : Premises where
  models := List.replicate (max arguments.replicas 1)
    ⟨letterAfter, settings.blockSize, settings.blockCount⟩
  tokenizer := .bytes (some usualEos)
  settings := settings
  replicated := by
    rw [ne_eq, List.replicate_eq_nil_iff]
    omega
  divided := fun model member => (List.mem_replicate.mp member).2 ▸ divided
  lenient := fun _ _ failed => by cases failed

variable {arguments : Arguments} {settings : EngineSettings} {divided : 0 < settings.blockSize}

@[simp]
theorem inputLength_request (i : Nat) :
    (arguments.request i).inputLength = arguments.promptLength := by
  show (prompt i arguments.promptLength).length + 0 = _
  rw [prompt, List.length_map, List.length_range, Nat.add_zero]

theorem stream_request (i n : Nat) :
    (arguments.premises settings divided).stream (arguments.request i) n =
      (solo letterAfter (prompt i arguments.promptLength) n).map Sample.token := by
  have model : ((arguments.premises settings divided).models.head
      (arguments.premises settings divided).replicated).nextToken = letterAfter := by
    have member := List.head_mem (arguments.premises settings divided).replicated
    rw [(List.mem_replicate.mp member).2]
  rw [Premises.stream, model]
  show (solo letterAfter (prompt i arguments.promptLength ++ []) n).map _ = _
  rw [List.append_nil]

/-- **Only its length ends a request.** -/
theorem judgement_eq {i n : Nat} (positive : 0 < n)
    (short : arguments.promptLength + n < Count.limit) :
    (arguments.premises settings divided).judgement (arguments.request i) n =
      .ok (if settings.maxLength ≤ arguments.promptLength + n ∨ arguments.maxTokens ≤ n
        then some .length else none) := by
  let stream := (arguments.premises settings divided).stream (arguments.request i) n
  have length : stream.length = n := by
    show (List.map _ _).length = n
    rw [List.length_map, length_solo]
  obtain ⟨last, final⟩ : ∃ last, stream.getLast? = some last := by
    rw [← Option.isSome_iff_exists, List.getLast?_isSome, ← List.length_pos_iff, length]
    exact positive
  unfold Premises.judgement Request.judge
  rw [show ((arguments.premises settings divided).stream (arguments.request i) n).getLast? =
    some last from final]
  show Reporting.verdict _ stream last = _
  unfold Reporting.verdict
  have counted : Count.add arguments.promptLength stream.length =
      .ok (arguments.promptLength + n) :=
    Count.add_eq_ok_iff.mpr ⟨length ▸ short, by rw [length]⟩
  show (Count.add (arguments.request i).inputLength stream.length >>= fun length => _) = _
  rw [inputLength_request, counted]
  show (if settings.maxLength ≤ arguments.promptLength + n ∨ arguments.maxTokens ≤ stream.length
    then _ else _) = _
  rw [length]
  split <;> rfl

/-- **The end of a request.** -/
theorem concludes (i : Nat)
    (short : arguments.promptLength + arguments.generated settings < Count.limit) :
    Concludes (arguments.premises settings divided) (arguments.request i)
      (arguments.generated settings) .length := by
  have length : arguments.generated settings =
    max 1 (min arguments.maxTokens (settings.maxLength - arguments.promptLength)) := rfl
  refine .ended (fun m less => ?_) ?_
  · rcases Nat.eq_zero_or_pos m with rfl | positive
    · rfl
    · rw [judgement_eq positive (by omega), if_neg (by omega)]
  · rw [judgement_eq (by omega) short, if_pos (by omega)]

end Arguments

end Simulation

end ContinuousBatching
