/-
**What a report says.**

A report changes how far a request was reported and how it ended, and nothing else
(`Ticket.report_yields`). Whether tokens end a request depends on the request, the tokenizer and the
limit of length only, not on the state of the ticket: `Request.judge` is that judgement.

* `Ticket.report_of_next`: a request with one new token reports it, with the judgement of all its
  tokens; if its text cannot be decoded, it is given up and reports that instead;
* `Ticket.report_of_aborted`: a request that was given up reports that and no token;
* `Ticket.report_lenient`: with a tokenizer whose failures are not fatal a report is never refused.
-/

import ContinuousBatching.Proofs.Outcome
import ContinuousBatching.Proofs.Request.InPlace

namespace ContinuousBatching

/-- Whether the tokens generated so far end a request, and why. -/
def Request.judge (request : Request) (tokenizer : Tokenizer) (maxLength : Nat)
    (tokens : List TokenId) : Checked (Option FinishReason) :=
  match tokens.getLast? with
  | none => .ok none
  | some last =>
    Reporting.verdict ⟨request.settings, tokenizer, request.inputLength, maxLength, false⟩ tokens
      last

/-- The text of these tokens, the last of which is `token`, is searched for stop texts, and it
cannot be decoded. -/
def GenerationSettings.Unreadable (settings : GenerationSettings) (tokenizer : Tokenizer)
    (tokens : List TokenId) (token : TokenId) : Prop :=
  settings.stopTexts ≠ [] ∧ token ∉ settings.stopTokens ∧
    ∃ cause, tokenizer.decode tokens = .error cause

/-- A reason to stop at the edges: a refusal, or a count that needs more than 64 bits. -/
def Stop.Plain (stop : Stop) : Prop :=
  stop = .fault .overflow ∨ ∃ cause, stop = .refused cause

/-- A reason to stop that is not fatal, unless the tokenizer says so. -/
def Stop.Excused (tokenizer : Tokenizer) (stop : Stop) : Prop :=
  stop = .fault .overflow ∨ ∃ cause, stop = .refused cause ∧
    (cause.isFatal = false ∨ ∃ tokens, tokenizer.decode tokens = .error cause)

theorem Stop.Excused.plain {tokenizer : Tokenizer} {stop : Stop}
    (excused : stop.Excused tokenizer) :
    stop.Plain := by
  rcases excused with large | ⟨cause, same, _⟩
  · exact Or.inl large
  · exact Or.inr ⟨cause, same⟩

/-- Where no failure of the tokenizer is fatal, nothing fatal is refused. -/
theorem Stop.Excused.eq_overflow {tokenizer : Tokenizer} {stop : Stop}
    (excused : stop.Excused tokenizer)
    (lenient : ∀ tokens cause, tokenizer.decode tokens = .error cause → cause.isFatal = false)
    (fatal : ∀ cause, stop = .refused cause → cause.isFatal = true) : stop = .fault .overflow := by
  rcases excused with large | ⟨cause, same, mild | ⟨tokens, failed⟩⟩
  · exact large
  · rw [fatal cause same] at mild
    cases mild
  · have mild := lenient tokens cause failed
    rw [fatal cause same] at mild
    cases mild

namespace Reporting

variable {rules : Reporting} {generated : List TokenId} {token : TokenId} {sample : Sample}

/-- Tokens that do not end a request leave room for another one; a judgement is refused where the
tokens cannot be decoded, or their length needs more than 64 bits. -/
theorem verdict_yields (rules : Reporting) (generated : List TokenId) (token : TokenId) :
    Yields (rules.verdict generated token)
      (fun reason? => reason? = none → generated.length < rules.settings.maxTokens ∧
        rules.inputLength + generated.length < rules.maxLength)
      (fun stop =>
        (∃ cause, rules.tokenizer.decode generated = .error cause ∧ stop = .refused cause) ∨
        Overflows (rules.inputLength + generated.length) stop) := by
  have asked : Yields ((rules.stops generated token).mapError Stop.refused) (fun _ => True)
      (fun stop => ∃ cause, rules.tokenizer.decode generated = .error cause ∧
        stop = .refused cause) := by
    unfold stops stopTextOccurs
    split
    · trivial
    · split
      · trivial
      · cases decoded : rules.tokenizer.decode generated with
        | ok text => trivial
        | error cause => exact ⟨cause, rfl, rfl⟩
  unfold verdict
  rw [yields_bind]
  refine asked.mono (fun stops _ => ?_) (fun _ refused => Or.inl refused)
  cases stops with
  | true =>
      rw [if_pos rfl]
      exact fun goesOn => by cases goesOn
  | false =>
      by_cases ends : rules.eos? = some token
      · rw [if_neg Bool.false_ne_true, if_pos ends]
        exact fun goesOn => by cases goesOn
      · rw [if_neg Bool.false_ne_true, if_neg ends]
        rw [yields_bind]
        refine (Count.add_yields _ _).mono (fun length sum => ?_) (fun _ large => Or.inr large)
        split
        · exact fun goesOn => by cases goesOn
        · rename_i short
          obtain ⟨within, few⟩ := not_or.mp short
          exact fun _ => ⟨Nat.lt_of_not_le few, sum.1 ▸ Nat.lt_of_not_le within⟩

/-- Tokens are judged exactly if they can be read as far as they have to be, unless their length
needs more than 64 bits. -/
theorem verdict_readable (rules : Reporting) (generated : List TokenId) (token : TokenId) :
    Yields (rules.verdict generated token)
      (fun _ => ¬ rules.settings.Unreadable rules.tokenizer generated token)
      (fun stop => ∀ cause, stop = .refused cause →
        rules.settings.Unreadable rules.tokenizer generated token) := by
  have asked : Yields ((rules.stops generated token).mapError Stop.refused)
      (fun _ => ¬ rules.settings.Unreadable rules.tokenizer generated token)
      (fun _ => rules.settings.Unreadable rules.tokenizer generated token) := by
    unfold stops stopTextOccurs
    by_cases listed : token ∈ rules.settings.stopTokens
    · rw [if_pos listed]
      exact fun unreadable => unreadable.2.1 listed
    · rw [if_neg listed]
      by_cases none : rules.settings.stopTexts.isEmpty = true
      · rw [if_pos none]
        exact fun unreadable => unreadable.1 (List.isEmpty_iff.mp none)
      · rw [if_neg none]
        cases decoded : rules.tokenizer.decode generated with
        | ok text =>
            intro unreadable
            obtain ⟨_, _, cause, failed⟩ := unreadable
            cases decoded.symm.trans failed
        | error cause =>
            exact ⟨fun empty => none (List.isEmpty_iff.mpr empty), listed, cause, decoded⟩
  unfold verdict
  rw [yields_bind]
  refine asked.mono (fun stops readable => ?_) (fun _ unreadable _ _ => unreadable)
  cases stops with
  | true => exact readable
  | false =>
      rw [if_neg Bool.false_ne_true]
      split
      · exact readable
      · rw [yields_bind]
        refine (Count.add_yields _ _).mono (fun length _ => ?_) fun _ large cause refused => ?_
        · split
          · exact readable
          · exact readable
        · rw [large.1] at refused
          cases refused

theorem verdict_excused (rules : Reporting) (generated : List TokenId) (token : TokenId) :
    Yields (rules.verdict generated token) (fun _ => True) (Stop.Excused rules.tokenizer) := by
  refine (verdict_yields rules generated token).mono (fun _ _ => trivial) ?_
  rintro _ (⟨cause, failed, rfl⟩ | ⟨rfl, _⟩)
  · exact Or.inr ⟨cause, rfl, Or.inr ⟨generated, failed⟩⟩
  · exact Or.inl rfl

/-- A token that the vocabulary does not have is not fatal. -/
theorem knownText_error {tokenizer : Tokenizer} {cause : Failure}
    (failed : Sample.knownText tokenizer token = .error cause) : cause.isFatal = false := by
  unfold Sample.knownText at failed
  split at failed
  · cases failed
  · cases failed
    rfl

theorem alternativesJson_error {tokenizer : Tokenizer} {cause : Failure} :
    ∀ {alternatives}, Sample.alternativesJson tokenizer alternatives = .error cause →
      cause.isFatal = false
  | [], failed => by cases failed
  | (other, logprob) :: rest, failed => by
      unfold Sample.alternativesJson at failed
      cases text : Sample.knownText tokenizer other with
      | error _ =>
          rw [text] at failed
          cases failed
          exact knownText_error text
      | ok _ =>
          rw [text] at failed
          cases later : Sample.alternativesJson tokenizer rest with
          | error _ =>
              rw [later] at failed
              cases failed
              exact alternativesJson_error later
          | ok _ =>
              rw [later] at failed
              cases failed

/-- Logprobs that cannot be rendered are not fatal. -/
theorem render_yields (rules : Reporting) (sample : Sample) :
    Yields (rules.render sample) (fun _ => True)
      (fun stop => ∃ cause, stop = .refused cause ∧ cause.isFatal = false) := by
  unfold render
  split
  · cases rendered : sample.toJson rules.tokenizer rules.settings.logprobs with
    | ok _ => trivial
    | error cause =>
        refine ⟨cause, rfl, ?_⟩
        unfold Sample.toJson at rendered
        cases alternatives : Sample.alternativesJson rules.tokenizer
            (sample.alternatives.take rules.settings.logprobs) with
        | error _ =>
            rw [alternatives] at rendered
            cases rendered
            exact alternativesJson_error alternatives
        | ok _ =>
            rw [alternatives] at rendered
            cases text : Sample.knownText rules.tokenizer sample.token with
            | error _ =>
                rw [text] at rendered
                cases rendered
                exact knownText_error text
            | ok _ =>
                rw [text] at rendered
                cases rendered
  · trivial

theorem scan_excused (rules : Reporting) : ∀ (samples : List Sample) (generated : List TokenId),
    Yields (rules.scan generated samples) (fun _ => True) (Stop.Excused rules.tokenizer)
  | [], _ => trivial
  | sample :: rest, generated => by
      unfold scan
      rw [yields_bind]
      refine (render_yields rules sample).mono (fun _ _ => ?_)
        (fun _ ⟨cause, refused, mild⟩ => Or.inr ⟨cause, refused, Or.inl mild⟩)
      rw [yields_bind]
      refine (verdict_excused rules _ _).mono (fun reason _ => ?_) (fun _ => id)
      cases reason with
      | some _ => trivial
      | none =>
          rw [yields_bind]
          exact (scan_excused rules rest _).mono (fun _ _ => trivial) (fun _ => id)

end Reporting

/-- Tokens that do not end a request are fewer than it may generate; a judgement of tokens is
refused where they cannot be decoded, or their length needs more than 64 bits. -/
theorem Request.judge_yields (request : Request) (tokenizer : Tokenizer) (maxLength : Nat)
    (tokens : List TokenId) :
    Yields (request.judge tokenizer maxLength tokens)
      (fun reason? => reason? = none → tokens ≠ [] → tokens.length < request.settings.maxTokens)
      (fun stop => (∃ cause, tokenizer.decode tokens = .error cause ∧ stop = .refused cause) ∨
        Overflows (request.inputLength + tokens.length) stop) := by
  unfold judge
  split
  · rename_i empty
    exact fun _ some => absurd (List.getLast?_eq_none_iff.mp empty) some
  · exact (Reporting.verdict_yields _ tokens _).mono (fun _ room none _ => (room none).1)
      (fun _ failed => failed)

/-- The judgement of tokens is the verdict about the last one. -/
theorem Request.judge_concat (request : Request) (tokenizer : Tokenizer) (maxLength : Nat)
    (tokens : List TokenId) (token : TokenId) :
    request.judge tokenizer maxLength (tokens ++ [token]) =
      Reporting.verdict ⟨request.settings, tokenizer, request.inputLength, maxLength, false⟩
        (tokens ++ [token]) token := by
  rw [judge, List.getLast?_concat]

namespace Ticket

variable {ticket : Ticket} {tokenizer : Tokenizer} {maxLength : Nat}

/-- Nothing of a ticket changes but how far it was reported, how it ended and whether it was given
up. -/
structure Reported (ticket next : Ticket) : Prop where
  request : next.request = ticket.request
  primary : next.primary = ticket.primary
  others : next.others = ticket.others

theorem delta_yields (ticket : Ticket) (tokenizer : Tokenizer) (maxLength : Nat)
    (logprobs : Bool) :
    Yields (ticket.delta tokenizer maxLength logprobs)
      (fun result => ticket.Reported result.2) (Stop.Excused tokenizer) := by
  rw [delta_eq, told]
  by_cases finished : ticket.finish.isSome
  · rw [if_pos finished]
    exact ⟨rfl, rfl, rfl⟩
  · rw [if_neg finished]
    by_cases aborted : ticket.abortRequested
    · rw [if_pos aborted]
      exact ⟨rfl, rfl, rfl⟩
    · rw [if_neg aborted, yields_bind]
      refine (Reporting.scan_excused _ _ _).mono (fun _ _ => ?_) (fun _ excused => excused)
      exact ⟨rfl, rfl, rfl⟩

/-- Going on with `other` matters only after a refusal that is not fatal. -/
theorem unlessFatal_yields {α : Type} {result other : Checked α} {done : α → Prop}
    {reason stopped : Stop → Prop} (first : Yields result done reason)
    (kept : ∀ stop, reason stop → (∀ cause, stop = .refused cause → cause.isFatal = true) →
      stopped stop)
    (second : ∀ cause, reason (.refused cause) → cause.isFatal = false →
      Yields other done stopped) : Yields (unlessFatal result other) done stopped := by
  cases result with
  | ok value => exact first
  | error stop =>
      cases stop with
      | fault kind => exact kept _ first fun _ same => by cases same
      | refused cause =>
          unfold unlessFatal
          dsimp only
          split
          · rename_i fatal
            refine kept _ first fun other same => ?_
            cases same
            exact fatal
          · rename_i trivial
            exact second cause first (Bool.eq_false_iff.mpr trivial)

/-- **A report** touches neither the request nor its lanes. -/
theorem report_yields (ticket : Ticket) (tokenizer : Tokenizer) (maxLength : Nat) :
    Yields (ticket.report tokenizer maxLength) (fun result => ticket.Reported result.2)
      Stop.Plain := by
  rw [report_eq]
  refine unlessFatal_yields (delta_yields _ _ _ _) (fun _ excused _ => excused.plain)
    fun _ _ _ => ?_
  refine unlessFatal_yields (delta_yields _ _ _ _) (fun _ excused _ => excused.plain)
    fun _ _ _ => ?_
  exact (delta_yields ticket.abort tokenizer maxLength true).mono
    (fun _ kept => ⟨kept.request, kept.primary, kept.others⟩) (fun _ excused => excused.plain)

/-- **A report is never refused** if no failure of the tokenizer is fatal: whoever cannot be decoded
is given up. -/
theorem report_lenient (ticket : Ticket) (maxLength : Nat)
    (lenient : ∀ tokens cause, tokenizer.decode tokens = .error cause → cause.isFatal = false) :
    Yields (ticket.report tokenizer maxLength) (fun _ => True)
      (fun stop => stop = .fault .overflow) := by
  have attempt (logprobs : Bool) : Yields (ticket.delta tokenizer maxLength logprobs)
      (fun _ => True) (Stop.Excused tokenizer) :=
    (delta_yields ticket tokenizer maxLength logprobs).mono (fun _ _ => trivial)
      fun _ excused => excused
  rw [report_eq]
  refine unlessFatal_yields (attempt true) (fun _ excused => excused.eq_overflow lenient)
    fun _ _ _ => ?_
  refine unlessFatal_yields (attempt false) (fun _ excused => excused.eq_overflow lenient)
    fun _ _ _ => ?_
  rw [delta_eq, told]
  by_cases finished : ticket.abort.finish.isSome
  · rw [if_pos finished]
    trivial
  · rw [if_neg finished]
    trivial

/-- A request that was given up reports that and no token. -/
theorem report_of_aborted (unfinished : ticket.finish = none)
    (aborted : ticket.abortRequested = true) (tokenizer : Tokenizer) (maxLength : Nat) :
    ticket.report tokenizer maxLength = .ok (⟨[], none, some .abort⟩,
      { ticket with reported := ticket.primary.committed.length, finish := some .abort }) := by
  rw [report_eq, delta_of_aborted unfinished aborted]
  rfl

/-- The last token together with the reported ones are all tokens. -/
theorem generated_eq {sample : Sample} (new : ticket.unreported = [sample]) :
    (ticket.primary.committed.take ticket.reported).map Sample.token ++ [sample.token] =
      ticket.primary.committedTokens := by
  have split := List.take_append_drop ticket.reported ticket.primary.committed
  rw [show ticket.primary.committed.drop ticket.reported = [sample] from new] at split
  rw [Lane.committedTokens, ← split, List.map_append, List.map_singleton, split]

/-- One attempt of a request with one new token: the token is reported with the judgement of all
tokens, unless logprobs cannot be rendered or there is no judgement. -/
theorem delta_of_next {sample : Sample} (unfinished : ticket.finish = none)
    (wanted : ticket.abortRequested = false) (new : ticket.unreported = [sample])
    (logprobs : Bool) :
    Yields (ticket.delta tokenizer maxLength logprobs)
      (fun result => ∃ reason?,
        ticket.request.judge tokenizer maxLength ticket.primary.committedTokens = .ok reason? ∧
        result.1.tokens = [sample.token] ∧ result.1.finish = reason? ∧
        result.2 = { ticket with reported := ticket.reported + 1, finish := reason? })
      (fun stop =>
        (logprobs = true ∧ ∃ cause, stop = .refused cause ∧ cause.isFatal = false) ∨
        ticket.request.judge tokenizer maxLength ticket.primary.committedTokens =
          .error stop) := by
  have judged : ∀ rules : Reporting, rules = ticket.reporting tokenizer maxLength logprobs →
      rules.verdict ticket.primary.committedTokens sample.token =
        ticket.request.judge tokenizer maxLength ticket.primary.committedTokens := by
    rintro _ rfl
    rw [← generated_eq new, Request.judge_concat]
    rfl
  rw [delta_eq, told]
  rw [unfinished, wanted, new]
  rw [if_neg (by decide), if_neg (by decide)]
  dsimp only
  rw [yields_bind, Reporting.scan, yields_bind]
  cases rendered : (ticket.reporting tokenizer maxLength logprobs).render sample with
  | ok text =>
      rw [yields_ok]
      dsimp only
      rw [generated_eq new, judged _ rfl]
      cases ticket.request.judge tokenizer maxLength ticket.primary.committedTokens with
      | error stop => exact Or.inr rfl
      | ok reason? =>
          cases reason? with
          | none => exact ⟨none, rfl, rfl, rfl, rfl⟩
          | some reason => exact ⟨some reason, rfl, rfl, rfl, rfl⟩
  | error stop =>
      have refused := (Reporting.render_yields _ sample).of_error rendered
      cases logprobs with
      | true => exact Or.inl ⟨rfl, refused⟩
      | false => cases rendered

/-- **The report of a request with one new token.** It follows the judgement of all tokens; a
refused judgement that is not fatal gives the request up. -/
theorem report_of_next {sample : Sample} (unfinished : ticket.finish = none)
    (wanted : ticket.abortRequested = false) (new : ticket.unreported = [sample])
    (tokenizer : Tokenizer) (maxLength : Nat) :
    Yields (ticket.report tokenizer maxLength)
      (fun result =>
        (∃ reason?,
          ticket.request.judge tokenizer maxLength ticket.primary.committedTokens = .ok reason? ∧
          result.1.tokens = [sample.token] ∧ result.1.finish = reason? ∧
          result.2 = { ticket with reported := ticket.reported + 1, finish := reason? }) ∨
        (∃ cause,
          ticket.request.judge tokenizer maxLength ticket.primary.committedTokens =
            .error (.refused cause) ∧ cause.isFatal = false ∧
          result.1.tokens = [] ∧ result.1.finish = some .abort ∧
          result.2 = { ticket.abort with
            reported := ticket.primary.committed.length, finish := some .abort }))
      (fun stop =>
        ticket.request.judge tokenizer maxLength ticket.primary.committedTokens = .error stop ∧
          ∀ cause, stop = .refused cause → cause.isFatal = true) := by
  have still : ticket.abort.finish = none := unfinished
  have given := delta_of_aborted still rfl tokenizer maxLength true
  rw [report_eq]
  refine unlessFatal_yields ((delta_of_next unfinished wanted new true).mono
    (fun _ reported => Or.inl reported) (fun _ reason => reason)) ?_ fun _ _ _ => ?_
  · rintro stop (⟨_, cause, rfl, trivial⟩ | failed) fatal
    · rw [fatal cause rfl] at trivial
      cases trivial
    · exact ⟨failed, fatal⟩
  · refine unlessFatal_yields ((delta_of_next unfinished wanted new false).mono
      (fun _ reported => Or.inl reported) (fun _ reason => reason)) ?_ ?_
    · rintro stop (⟨untrue, _⟩ | failed) fatal
      · cases untrue
      · exact ⟨failed, fatal⟩
    · rintro cause (⟨untrue, _⟩ | failed) trivial
      · cases untrue
      · rw [given]
        exact Or.inr ⟨cause, failed, trivial, rfl, rfl, rfl⟩

end Ticket

end ContinuousBatching
