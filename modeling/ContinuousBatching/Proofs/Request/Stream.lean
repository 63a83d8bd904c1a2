/-
**What one report passes on.**

However many tokens a request generated since its last report, a report takes them up in order: it
passes a first part of them on, which is all of them unless one ends the request, and counts them as
reported. Logprobs, if there are any, spell out the tokens passed on, one by one.

* `Reporting.scan_yields`, `Ticket.delta_takes`: what a scan of tokens takes up (`Taken`);
* `Ticket.reports_of_report`: the three kinds of reports (`Ticket.Reports`);
* `Ticket.Reports.again`, `Ticket.Reports.report_again`: a second report right after the first has
  nothing to add;
* `Ticket.Reports.isEmpty_iff`: who has nothing to report.
-/

import ContinuousBatching.Proofs.Request.Rendering
import ContinuousBatching.Proofs.Request.Report
import ContinuousBatching.Proofs.Request.Ticket

namespace ContinuousBatching

/-- The texts spell out the samples, one for each. -/
def Spelled (tokenizer : Tokenizer) (count : Nat) : List Sample → List String → Prop :=
  List.Forall₂ fun sample text => sample.Renders tokenizer count text

/-- A delta takes up the first `n` of the samples; it stops before the last one only where it
finishes. -/
structure Taken (tokenizer : Tokenizer) (count : Nat) (samples : List Sample) (delta : Delta)
    (n : Nat) : Prop where
  within : n ≤ samples.length
  tokens : delta.tokens = (samples.take n).map Sample.token
  spelled : ∀ texts, delta.logprobs = some texts → Spelled tokenizer count (samples.take n) texts
  complete : delta.finish = none → n = samples.length
  reason : ∀ reason, delta.finish = some reason → 0 < n ∧ reason ≠ .abort

namespace Reporting

variable {rules : Reporting}

/-- Tokens are never judged to be given up. -/
theorem verdict_wanted (rules : Reporting) (generated : List TokenId) (token : TokenId) :
    Yields (rules.verdict generated token) (fun reason? => reason? ≠ some .abort)
      (fun _ => True) := by
  unfold verdict
  rw [yields_bind]
  cases (rules.stops generated token).mapError Stop.refused with
  | error stop => trivial
  | ok stops =>
      cases stops with
      | true => exact fun same => by cases same
      | false =>
          rw [yields_ok, if_neg Bool.false_ne_true]
          split
          · exact fun same => by cases same
          · rw [yields_bind]
            refine (Count.add_yields _ _).mono (fun length _ => ?_) (fun _ _ => trivial)
            split
            · exact fun same => by cases same
            · exact fun same => by cases same

/-- What is rendered is the spelling of the sample; without logprobs nothing is. -/
theorem render_spells (rules : Reporting) (sample : Sample) :
    Yields (rules.render sample)
      (fun text? => if rules.withLogprobs then ∃ text, text? = some text ∧
          sample.Renders rules.tokenizer rules.settings.logprobs text
        else text? = none)
      (fun _ => True) := by
  unfold render
  cases rules.withLogprobs with
  | false => exact rfl
  | true =>
      cases rendered : sample.toJson rules.tokenizer rules.settings.logprobs with
      | error cause => trivial
      | ok text => exact ⟨text, rfl, Sample.toJson_eq_ok_iff.mp rendered⟩

/-- **A scan** takes samples up until one finishes the request. Without samples it does not fail. -/
theorem scan_yields (rules : Reporting) : ∀ (samples : List Sample) (generated : List TokenId),
    Yields (rules.scan generated samples)
      (fun delta => (rules.withLogprobs = false → delta.logprobs = none) ∧
        ∃ n, Taken rules.tokenizer rules.settings.logprobs samples delta n)
      (fun _ => samples ≠ [])
  | [], _ => by
      refine ⟨fun without => ?_, 0, Nat.le_refl 0, rfl, fun texts some => ?_, fun _ => rfl,
        fun _ finish => by cases finish⟩
      · rw [without]
        rfl
      · split at some
        · cases some
          exact .nil
        · cases some
  | sample :: rest, generated => by
      have some : sample :: rest ≠ [] := List.cons_ne_nil _ _
      unfold scan
      rw [yields_bind]
      refine (render_spells rules sample).mono (fun text? spells => ?_) (fun _ _ => some)
      rw [yields_bind]
      refine (verdict_wanted rules _ _).mono (fun reason? wanted => ?_) (fun _ _ => some)
      cases reason? with
      | some reason =>
          refine ⟨fun without => ?_, 1, Nat.succ_le_succ (Nat.zero_le _), rfl,
            fun texts there => ?_, fun goesOn => (by cases goesOn), fun other same => ?_⟩
          · rw [without]
            rfl
          · split at there
            · rename_i rendered
              rw [if_pos rendered] at spells
              obtain ⟨text, rfl, spelled⟩ := spells
              cases there
              exact .cons spelled .nil
            · cases there
          · cases same
            exact ⟨Nat.one_pos, fun abort => wanted (abort ▸ rfl)⟩
      | none =>
          rw [yields_bind]
          refine (scan_yields rules rest _).mono ?_ (fun _ _ => some)
          rintro later ⟨silent, n, taken⟩
          refine ⟨fun without => ?_, n + 1, Nat.succ_le_succ taken.within, ?_,
            fun texts there => ?_, fun goesOn => congrArg (· + 1) (taken.complete goesOn),
            fun reason finish => ⟨Nat.succ_pos n, (taken.reason reason finish).2⟩⟩
          · show later.logprobs.map _ = none
            rw [silent without]
            rfl
          · show sample.token :: later.tokens = _
            rw [taken.tokens]
            rfl
          · obtain ⟨others, spelled, rfl⟩ := Option.map_eq_some_iff.mp there
            have rendered : rules.withLogprobs = true := by
              by_contra without
              rw [silent (Bool.eq_false_iff.mpr without)] at spelled
              cases spelled
            rw [if_pos rendered] at spells
            obtain ⟨text, rfl, first⟩ := spells
            exact .cons first (taken.spelled others spelled)

end Reporting

namespace Ticket

variable {ticket next : Ticket} {delta : Delta} {tokenizer : Tokenizer} {maxLength : Nat}

/-- What a request reports, and the request after the report. -/
inductive Reports (tokenizer : Tokenizer) (ticket : Ticket) : Delta → Ticket → Prop
  /-- It ended before. -/
  | ended (finished : ticket.finish ≠ none) : Reports tokenizer ticket .none ticket
  /-- It was given up by its caller, or because its tokens have no text. -/
  | given (unfinished : ticket.finish = none)
      (due : ticket.abortRequested = true ∨ ticket.unreported ≠ []) :
      Reports tokenizer ticket ⟨[], none, some .abort⟩
        { ticket.abort with
          reported := ticket.primary.committed.length, finish := some .abort }
  /-- It passes tokens on. -/
  | next {delta : Delta} {n : Nat} (unfinished : ticket.finish = none)
      (wanted : ticket.abortRequested = false)
      (taken : Taken tokenizer ticket.request.settings.logprobs ticket.unreported delta n) :
      Reports tokenizer ticket delta
        { ticket with reported := ticket.reported + n, finish := delta.finish }

/-- One attempt of a request that goes on takes tokens up. -/
theorem delta_takes (unfinished : ticket.finish = none) (wanted : ticket.abortRequested = false)
    (tokenizer : Tokenizer) (maxLength : Nat) (logprobs : Bool) :
    Yields (ticket.delta tokenizer maxLength logprobs)
      (fun result => ∃ n,
        Taken tokenizer ticket.request.settings.logprobs ticket.unreported result.1 n ∧
        result.2 =
          { ticket with reported := ticket.reported + n, finish := result.1.finish })
      (fun _ => ticket.unreported ≠ []) := by
  rw [delta_eq, told]
  rw [unfinished, wanted, if_neg (by decide), if_neg (by decide)]
  dsimp only
  rw [yields_bind]
  refine (Reporting.scan_yields _ _ _).mono ?_ (fun _ some => some)
  rintro delta ⟨_, n, taken⟩
  have length : delta.tokens.length = n := by
    rw [taken.tokens, List.length_map, List.length_take]
    exact Nat.min_eq_left taken.within
  refine ⟨n, taken, ?_⟩
  dsimp only
  rw [length]

/-- One attempt to report. Without tokens to report it does not fail. -/
theorem reports_of_delta (ticket : Ticket) (tokenizer : Tokenizer) (maxLength : Nat)
    (logprobs : Bool) :
    Yields (ticket.delta tokenizer maxLength logprobs)
      (fun result => ticket.Reports tokenizer result.1 result.2)
      (fun _ => ticket.finish = none ∧ ticket.unreported ≠ []) := by
  cases finished : ticket.finish with
  | some reason =>
      rw [delta_eq, told]
      rw [finished]
      exact .ended (by rw [finished]; exact Option.some_ne_none reason)
  | none =>
      cases aborted : ticket.abortRequested with
      | true =>
          rw [delta_of_aborted finished aborted]
          have marked : ticket.abort = ticket := by
            rw [abort, ← aborted]
          have given : ticket.Reports tokenizer ⟨[], none, some .abort⟩ { ticket.abort with
              reported := ticket.primary.committed.length, finish := some .abort } :=
            .given finished (Or.inl aborted)
          rwa [marked] at given
      | false =>
          refine (delta_takes finished aborted tokenizer maxLength logprobs).mono ?_
            (fun _ some => ⟨rfl, some⟩)
          rintro _ ⟨n, taken, next⟩
          rw [next]
          exact .next finished aborted taken

/-- **A report** is of one of the three kinds. -/
theorem reports_of_report (ticket : Ticket) (tokenizer : Tokenizer) (maxLength : Nat) :
    Yields (ticket.report tokenizer maxLength)
      (fun result => ticket.Reports tokenizer result.1 result.2) (fun _ => True) := by
  rw [report_eq]
  refine unlessFatal_yields (reports_of_delta ticket tokenizer maxLength true)
    (fun _ _ _ => trivial) fun _ failed _ => ?_
  refine unlessFatal_yields (reports_of_delta ticket tokenizer maxLength false)
    (fun _ _ _ => trivial) fun _ _ _ => ?_
  have unfinished : ticket.abort.finish = none := failed.1
  rw [delta_of_aborted unfinished rfl]
  exact .given failed.1 (Or.inr failed.2)

namespace Reports

theorem reported (reports : ticket.Reports tokenizer delta next) : ticket.Reported next := by
  cases reports <;> exact ⟨rfl, rfl, rfl⟩

/-- Whoever was given up is so still. -/
theorem given_mono (reports : ticket.Reports tokenizer delta next)
    (given : ticket.abortRequested = true) : next.abortRequested = true := by
  cases reports with
  | ended => exact given
  | given => rfl
  | next => exact given

theorem alike (reports : ticket.Reports tokenizer delta next) (alike : ticket.Alike) :
    next.Alike := by
  cases reports <;> exact alike

/-- A report without content changes nothing. -/
theorem eq_of_isEmpty (reports : ticket.Reports tokenizer delta next) (empty : delta.isEmpty) :
    next = ticket := by
  obtain ⟨tokens, goesOn⟩ := Bool.and_eq_true .. |>.mp empty
  cases reports with
  | ended => rfl
  | given => cases goesOn
  | @next _ n unfinished _ taken =>
      have none : n = 0 := by
        have length := congrArg List.length taken.tokens
        rw [List.isEmpty_iff.mp tokens, List.length_map, List.length_take,
          Nat.min_eq_left taken.within] at length
        exact length.symm
      rw [none, Option.isNone_iff_eq_none.mp goesOn, ← unfinished]
      rfl

/-- A request that goes on after its report has passed everything on. -/
theorem drained (reports : ticket.Reports tokenizer delta next) (unfinished : next.finish = none) :
    next.abortRequested = false ∧ next.unreported = [] := by
  cases reports with
  | ended finished => exact absurd unfinished finished
  | given => cases unfinished
  | @next _ n _ wanted taken =>
      refine ⟨wanted, ?_⟩
      show ticket.primary.committed.drop (ticket.reported + n) = []
      rw [← List.drop_drop]
      exact List.drop_eq_nil_of_le (Nat.le_of_eq (taken.complete unfinished).symm)

/-- **A second report** right after the first has nothing to add. -/
theorem again {newer : Ticket} {more : Delta} (reports : ticket.Reports tokenizer delta next)
    (second : next.Reports tokenizer more newer) : more.isEmpty := by
  cases second with
  | ended => rfl
  | given unfinished due =>
      obtain ⟨wanted, none⟩ := reports.drained unfinished
      rcases due with given | some
      · rw [wanted] at given
        cases given
      · exact absurd none some
  | @next _ n unfinished _ taken =>
      rw [(reports.drained unfinished).2] at taken
      have nothing : more.tokens = [] := taken.tokens.trans (by rw [List.take_nil, List.map_nil])
      have goesOn : more.finish = none := by
        refine Option.eq_none_iff_forall_ne_some.mpr fun reason finish => ?_
        exact absurd taken.within (Nat.not_le_of_lt (taken.reason reason finish).1)
      rw [Delta.isEmpty, nothing, goesOn]
      rfl

/-- A second report does not fail, and leaves the request as it is. -/
theorem report_again (reports : ticket.Reports tokenizer delta next) (maxLength : Nat) :
    ∃ more, next.report tokenizer maxLength = .ok (more, next) ∧ more.isEmpty := by
  have asked := (reports_of_delta next tokenizer maxLength true).with_run
  cases first : next.delta tokenizer maxLength true with
  | error stop =>
      obtain ⟨unfinished, some⟩ := asked.of_error first
      exact absurd (reports.drained unfinished).2 some
  | ok result =>
      obtain ⟨more, newer⟩ := result
      have second : next.Reports tokenizer more newer := (asked.of_ok first).1
      have empty := reports.again second
      rw [second.eq_of_isEmpty empty] at first
      refine ⟨more, ?_, empty⟩
      rw [report_eq, first]
      rfl

/-- A request has nothing to report exactly if it ended before, or if it was not given up and
reported all its tokens. -/
theorem isEmpty_iff (reports : ticket.Reports tokenizer delta next) :
    delta.isEmpty = true ↔
      ticket.finish ≠ none ∨ (ticket.abortRequested = false ∧ ticket.unreported = []) := by
  cases reports with
  | ended finished => exact iff_of_true rfl (Or.inl finished)
  | given unfinished due =>
      refine iff_of_false Bool.false_ne_true ?_
      rintro (finished | ⟨wanted, none⟩)
      · exact finished unfinished
      · rcases due with given | some
        · rw [wanted] at given
          cases given
        · exact some none
  | @next _ n unfinished wanted taken =>
      have length : delta.tokens.length = n := by
        rw [taken.tokens, List.length_map, List.length_take, Nat.min_eq_left taken.within]
      rw [or_iff_right (fun finished => finished unfinished), and_iff_right wanted, Delta.isEmpty,
        Bool.and_eq_true, List.isEmpty_iff, Option.isNone_iff_eq_none, ← List.length_eq_zero_iff,
        ← List.length_eq_zero_iff, length]
      constructor
      · rintro ⟨none, goesOn⟩
        rw [← taken.complete goesOn, none]
      · intro none
        have within := taken.within
        refine ⟨by omega, Option.eq_none_iff_forall_ne_some.mpr fun reason finish => ?_⟩
        have positive := (taken.reason reason finish).1
        omega

end Reports

end Ticket

end ContinuousBatching
