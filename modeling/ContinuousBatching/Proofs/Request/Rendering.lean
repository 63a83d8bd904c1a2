/-
**What the rendering of a sample says.**

A sample is reported as an object of JSON with three members: the text of its token, the logprob of
the token, and a list of alternatives. The list has the first alternatives of the sample, as many as
are wanted or as there are, in their order; each is an object with the text of its own token and its
own logprob.

* `Sample.toJson_eq_ok_iff`: a sample is rendered to a text exactly if the text says this
  (`Sample.Renders`);
* `Sample.exists_toJson_iff`: it is rendered at all exactly if the vocabulary has its token and
  those of the alternatives that are wanted.
-/

import ContinuousBatching.Request.Sample
import Mathlib.Data.List.Forall2

namespace ContinuousBatching.Sample

open ContinuousBatching.Number (Single)

variable {tokenizer : Tokenizer}

/-- A token and its logprob as an object, the token spelled out. -/
def Entry (tokenizer : Tokenizer) (alternative : TokenId × Single) (entry : String) : Prop :=
  ∃ text, tokenizer.tokenText? alternative.1 = some text ∧
    entry = Json.object [("token", Json.string text), ("logprob", Json.single alternative.2)]

/-- The sample as an object with its own text and logprob and with the first `count` of the
alternatives. -/
def Renders (tokenizer : Tokenizer) (count : Nat) (sample : Sample) (rendering : String) : Prop :=
  ∃ text entries, tokenizer.tokenText? sample.token = some text ∧
    List.Forall₂ (Entry tokenizer) (sample.alternatives.take count) entries ∧
    rendering = Json.object [("token", Json.string text), ("logprob", Json.single sample.logprob),
      ("top_logprobs", Json.array entries)]

theorem knownText_eq_ok_iff {token : TokenId} {text : String} :
    knownText tokenizer token = .ok text ↔ tokenizer.tokenText? token = some text := by
  unfold knownText
  cases tokenizer.tokenText? token with
  | none => simp
  | some known => simp

theorem alternativesJson_eq_ok_iff {alternatives : List (TokenId × Single)} :
    ∀ {entries : List String}, alternativesJson tokenizer alternatives = .ok entries ↔
      List.Forall₂ (Entry tokenizer) alternatives entries := by
  induction alternatives with
  | nil =>
      intro entries
      simp [alternativesJson, eq_comm]
  | cons alternative rest ih =>
      intro entries
      rw [List.forall₂_cons_left_iff]
      constructor
      · intro done
        unfold alternativesJson at done
        cases known : knownText tokenizer alternative.1 with
        | error cause =>
            rw [known] at done
            cases done
        | ok text =>
            rw [known] at done
            cases later : alternativesJson tokenizer rest with
            | error cause =>
                rw [later] at done
                cases done
            | ok others =>
                rw [later] at done
                cases done
                exact ⟨_, others, ⟨text, knownText_eq_ok_iff.mp known, rfl⟩, ih.mp later, rfl⟩
      · rintro ⟨_, others, ⟨text, known, rfl⟩, later, rfl⟩
        unfold alternativesJson
        rw [knownText_eq_ok_iff.mpr known, ih.mpr later]
        rfl

/-- **A rendering** says what the sample and its first alternatives are. -/
theorem toJson_eq_ok_iff {sample : Sample} {count : Nat} {rendering : String} :
    sample.toJson tokenizer count = .ok rendering ↔
      sample.Renders tokenizer count rendering := by
  constructor
  · intro done
    unfold toJson at done
    cases written : alternativesJson tokenizer (sample.alternatives.take count) with
    | error cause =>
        rw [written] at done
        cases done
    | ok entries =>
        rw [written] at done
        cases known : knownText tokenizer sample.token with
        | error cause =>
            rw [known] at done
            cases done
        | ok text =>
            rw [known] at done
            cases done
            exact ⟨text, entries, knownText_eq_ok_iff.mp known,
              alternativesJson_eq_ok_iff.mp written, rfl⟩
  · rintro ⟨text, entries, known, written, rfl⟩
    unfold toJson
    rw [alternativesJson_eq_ok_iff.mpr written, knownText_eq_ok_iff.mpr known]
    rfl

/-- Tokens can be written as entries if the vocabulary has all of them. -/
theorem exists_entries_iff {alternatives : List (TokenId × Single)} :
    (∃ entries, List.Forall₂ (Entry tokenizer) alternatives entries) ↔
      ∀ alternative ∈ alternatives, ∃ text, tokenizer.tokenText? alternative.1 = some text := by
  induction alternatives with
  | nil => simp
  | cons alternative rest ih =>
      rw [List.forall_mem_cons, ← ih]
      constructor
      · rintro ⟨_, written⟩
        obtain ⟨_, others, ⟨text, known, _⟩, later, _⟩ := List.forall₂_cons_left_iff.mp written
        exact ⟨⟨text, known⟩, others, later⟩
      · rintro ⟨⟨text, known⟩, others, later⟩
        exact ⟨_ :: others, .cons ⟨text, known, rfl⟩ later⟩

/-- **Samples of known tokens** can be rendered, and no others. -/
theorem exists_toJson_iff {sample : Sample} {count : Nat} :
    (∃ rendering, sample.toJson tokenizer count = .ok rendering) ↔
      (∃ text, tokenizer.tokenText? sample.token = some text) ∧
      ∀ alternative ∈ sample.alternatives.take count,
        ∃ text, tokenizer.tokenText? alternative.1 = some text := by
  simp only [toJson_eq_ok_iff, ← exists_entries_iff]
  constructor
  · rintro ⟨_, text, entries, known, written, _⟩
    exact ⟨⟨text, known⟩, entries, written⟩
  · rintro ⟨⟨text, known⟩, entries, written⟩
    exact ⟨_, text, entries, known, written, rfl⟩

end ContinuousBatching.Sample
