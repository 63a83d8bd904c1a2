/-
**Tokenizers whose failures are fatal.**

Nothing keeps a tokenizer from failing in a fatal way, which stops a step in the middle. A step that
comes to its end has not met such a failure, so it would have come to the same end with a tokenizer
whose failures are all put up with (`Tokenizer.tamed`):

* `Checked.Within`: a computation ends like another one, unless that ends fatally;
* `Action.Within`: an action has every run of another one that succeeds;
* `Ticket.report_within`, `Ticket.ask_within`: so it is with what a request reports.
-/

import ContinuousBatching.Proofs.Outcome
import ContinuousBatching.Proofs.Request.InPlace

namespace ContinuousBatching

variable {σ α β : Type}

/-- The failure, unless it is fatal; then one that is not. -/
def Failure.tamed (cause : Failure) : Failure :=
  if cause.isFatal then .untranslatable (.unknownToken 0) else cause

theorem Failure.isFatal_tamed (cause : Failure) : cause.tamed.isFatal = false := by
  unfold tamed
  by_cases fatal : cause.isFatal = true
  · rw [if_pos fatal]
    rfl
  · rw [if_neg fatal]
    exact Bool.not_eq_true _ ▸ fatal

theorem Failure.tamed_of_mild {cause : Failure} (mild : cause.isFatal = false) :
    cause.tamed = cause := by
  rw [tamed, mild]
  rfl

/-- The tokenizer, with a failure that is not fatal in place of each one that is. -/
def Tokenizer.tamed (tokenizer : Tokenizer) : Tokenizer where
  decode tokens := (tokenizer.decode tokens).mapError Failure.tamed
  tokenText? := tokenizer.tokenText?
  eos? := tokenizer.eos?

theorem Tokenizer.tamed_lenient (tokenizer : Tokenizer) (tokens : List TokenId) (cause : Failure)
    (failed : tokenizer.tamed.decode tokens = .error cause) : cause.isFatal = false := by
  have mapped : (tokenizer.decode tokens).mapError Failure.tamed = .error cause := failed
  cases decoded : tokenizer.decode tokens with
  | ok text =>
      rw [decoded] at mapped
      cases mapped
  | error first =>
      rw [decoded] at mapped
      cases mapped
      exact first.isFatal_tamed

/-! ### Computations -/

/-- The second computation ends like the first one, unless that is refused for a fatal cause. -/
def Checked.Within (x y : Checked α) : Prop :=
  y = x ∨ ∃ cause, x = .error (.refused cause) ∧ cause.isFatal = true

namespace Checked.Within

theorem refl (x : Checked α) : Within x x := Or.inl rfl

theorem of_ok {x y : Checked α} {value : α} (within : Within x y) (run : x = .ok value) :
    y = .ok value := by
  rcases within with same | ⟨cause, ended, _⟩
  · rw [same, run]
  · rw [run] at ended
    cases ended

theorem bind {x y : Checked β} {next next' : β → Checked α} (first : Within x y)
    (later : ∀ value, Within (next value) (next' value)) : Within (x >>= next) (y >>= next') := by
  rcases first with same | ⟨cause, ended, fatal⟩
  · subst same
    cases y with
    | ok value => exact later value
    | error stop => exact .refl _
  · subst ended
    exact Or.inr ⟨cause, rfl, fatal⟩

end Checked.Within

/-- Every run of the first action that succeeds is one of the second. -/
def Action.Within (first second : Action σ α) : Prop :=
  ∀ s value t, first s = .ok value t → second s = .ok value t

namespace Action.Within

theorem refl (action : Action σ α) : Within action action := fun _ _ _ run => run

theorem bind {first second : Action σ β} {next next' : β → Action σ α}
    (within : Within first second) (later : ∀ value, Within (next value) (next' value)) :
    Within (first >>= next) (second >>= next') := by
  intro s value t run
  have run' : EStateM.bind first next s = .ok value t := run
  show EStateM.bind second next' s = .ok value t
  unfold EStateM.bind at run' ⊢
  cases started : first s with
  | ok middle u =>
      rw [started] at run'
      rw [within s middle u started]
      exact later middle u value t run'
  | error stop u =>
      rw [started] at run'
      cases run'

/-- The same on a part of a larger state. -/
theorem on {τ : Type} {first second : Action τ α} (part : σ → τ) (put : τ → σ → σ)
    (within : Within first second) : Within (first.on part put) (second.on part put) := by
  intro s value t run
  unfold Action.on at run ⊢
  cases started : first (part s) with
  | ok middle u =>
      rw [started] at run
      rw [within _ _ _ started]
      exact run
  | error stop u =>
      rw [started] at run
      cases run

theorem ite {test : Prop} [Decidable test] {first second first' second' : Action σ α}
    (yes : Within first first') (no : Within second second') :
    Within (if test then first else second) (if test then first' else second') := by
  split
  · exact yes
  · exact no

end Action.Within

/-! ### Reports -/

variable {tokenizer : Tokenizer}

namespace Sample

theorem alternativesJson_tamed : ∀ alternatives : List (TokenId × Number.Single),
    alternativesJson tokenizer.tamed alternatives = alternativesJson tokenizer alternatives
  | [] => rfl
  | (token, logprob) :: rest => by
      unfold alternativesJson
      rw [alternativesJson_tamed rest]
      rfl

theorem toJson_tamed (sample : Sample) (count : Nat) :
    sample.toJson tokenizer.tamed count = sample.toJson tokenizer count := by
  unfold toJson
  rw [alternativesJson_tamed]
  rfl

end Sample

namespace Reporting

/-- The rules with a tokenizer whose failures are all put up with. -/
def tamed (rules : Reporting) : Reporting := { rules with tokenizer := rules.tokenizer.tamed }

theorem stops_within (rules : Reporting) (generated : List TokenId) (token : TokenId) :
    Checked.Within ((rules.stops generated token).mapError .refused)
      ((rules.tamed.stops generated token).mapError .refused) := by
  unfold stops
  show Checked.Within (Except.mapError Stop.refused
      (if token ∈ rules.settings.stopTokens then _ else _))
    (Except.mapError Stop.refused (if token ∈ rules.settings.stopTokens then _ else _))
  split
  · exact .refl _
  · unfold stopTextOccurs
    show Checked.Within (Except.mapError Stop.refused
        (if rules.settings.stopTexts.isEmpty then _ else _))
      (Except.mapError Stop.refused (if rules.settings.stopTexts.isEmpty then _ else _))
    split
    · exact .refl _
    · have decode : rules.tamed.tokenizer.decode generated =
          (rules.tokenizer.decode generated).mapError Failure.tamed := rfl
      rw [decode]
      cases rules.tokenizer.decode generated with
      | ok text => exact .refl _
      | error cause =>
          cases fatal : cause.isFatal with
          | true => exact Or.inr ⟨cause, rfl, fatal⟩
          | false =>
              have same : Except.mapError Failure.tamed (.error cause : Except Failure String) =
                  .error cause := congrArg Except.error (Failure.tamed_of_mild fatal)
              rw [same]
              exact .refl _

theorem verdict_within (rules : Reporting) (generated : List TokenId) (token : TokenId) :
    Checked.Within (rules.verdict generated token) (rules.tamed.verdict generated token) :=
  (rules.stops_within generated token).bind fun _ => .refl _

theorem render_tamed (rules : Reporting) (sample : Sample) :
    rules.tamed.render sample = rules.render sample := by
  unfold render
  show (if rules.withLogprobs then
    ((sample.toJson rules.tokenizer.tamed rules.settings.logprobs).mapError Stop.refused).map some
      else .ok none) = _
  rw [Sample.toJson_tamed]

theorem scan_within (rules : Reporting) : ∀ (samples : List Sample) (generated : List TokenId),
    Checked.Within (rules.scan generated samples) (rules.tamed.scan generated samples)
  | [], _ => .refl _
  | sample :: rest, generated => by
      unfold scan
      rw [render_tamed]
      refine (Checked.Within.refl _).bind fun logprob => ?_
      refine (rules.verdict_within _ _).bind fun reason? => ?_
      cases reason? with
      | some reason => exact .refl _
      | none => exact (scan_within rules rest _).bind fun _ => .refl _

end Reporting

namespace Ticket

theorem delta_within (ticket : Ticket) (maxLength : Nat) (logprobs : Bool) :
    Checked.Within (ticket.delta tokenizer maxLength logprobs)
      (ticket.delta tokenizer.tamed maxLength logprobs) := by
  rw [delta_eq, delta_eq, told, told]
  split
  · exact .refl _
  · split
    · exact .refl _
    · exact ((ticket.reporting tokenizer maxLength logprobs).scan_within _ _).bind fun _ => .refl _

/-- Going on after a refusal that is not fatal. -/
theorem unlessFatal_within {result result' other other' : Checked α} (first : result.Within result')
    (second : other.Within other') :
    (unlessFatal result other).Within (unlessFatal result' other') := by
  rcases first with same | ⟨cause, ended, fatal⟩
  · subst same
    unfold unlessFatal
    split
    · split
      · exact .refl _
      · exact second
    · exact .refl _
  · subst ended
    refine Or.inr ⟨cause, ?_, fatal⟩
    show (if cause.isFatal then _ else _) = _
    rw [if_pos fatal]

/-- **A report** that does not meet a fatal failure is the same if all failures are put up with. -/
theorem report_within (ticket : Ticket) (maxLength : Nat) :
    Checked.Within (ticket.report tokenizer maxLength)
      (ticket.report tokenizer.tamed maxLength) := by
  rw [report_eq, report_eq]
  exact unlessFatal_within (ticket.delta_within maxLength true)
    (unlessFatal_within (ticket.delta_within maxLength false)
      (ticket.abort.delta_within maxLength true))

/-- **Asking** without meeting a fatal failure. -/
theorem ask_within (maxLength : Nat) :
    Action.Within (ask tokenizer maxLength) (ask tokenizer.tamed maxLength) := by
  intro ticket delta next run
  rw [ask_eq, noted_eq_ok] at run ⊢
  exact (ticket.report_within maxLength).of_ok run

end Ticket

end ContinuousBatching
