/-
**Attempts to report, one after the other.**

What is known about a token may be impossible to render where the token itself can be reported. The
attempt without logprobs goes through the same tokens and judges them alike, so it has the same to
report wherever the attempt with logprobs has anything to report (`Checked.Adorns`).

* `Reporting.scan_adorns`, `Ticket.delta_adorns`: the two attempts side by side, token by token;
* `Ticket.report_of_bare`, `Ticket.report_of_refused`, `Ticket.report_stopped`: the report, by what
  becomes of the attempt without logprobs;
* `Ticket.attempts_agree`: what each attempt has to do with the others and with the report.
-/

import ContinuousBatching.Proofs.Request.Stream

namespace ContinuousBatching

variable {α β : Type}

/-- The second computation ends like the first one, with a plainer value; but the first one may also
be refused for a cause of its own, which is not fatal. -/
def Checked.Adorns (strip : α → α) (full plain : Checked α) : Prop :=
  full.map strip = plain ∨ ∃ cause, full = .error (.refused cause) ∧ cause.isFatal = false

namespace Checked.Adorns

variable {strip : α → α} {full plain : Checked α}

theorem of_ok {value : α} (adorns : Adorns strip full plain) (run : full = .ok value) :
    plain = .ok (strip value) := by
  subst run
  rcases adorns with same | ⟨_, refused, _⟩
  · exact same.symm
  · cases refused

/-- Where the plain computation is refused, so is the other one. -/
theorem of_refused {cause : Failure} (adorns : Adorns strip full plain)
    (refused : plain = .error (.refused cause)) : ∃ cause, full = .error (.refused cause) := by
  subst refused
  rcases adorns with same | ⟨cause, ended, _⟩
  · cases full with
    | ok value => cases same
    | error stop =>
        cases same
        exact ⟨cause, rfl⟩
  · exact ⟨cause, ended⟩

/-- A stop of the first computation that cannot be put up with is one of both. -/
theorem of_stopped {stop : Stop} (adorns : Adorns strip full plain) (ended : full = .error stop)
    (fatal : ∀ cause, stop = .refused cause → cause.isFatal = true) : plain = .error stop := by
  subst ended
  rcases adorns with same | ⟨cause, refused, mild⟩
  · exact same.symm
  · cases refused
    rw [fatal cause rfl] at mild
    cases mild

/-- The same work on the values of two computations. -/
theorem map {strip' : β → β} {next : α → β} (adorns : Adorns strip full plain)
    (commutes : ∀ value, strip' (next value) = next (strip value)) :
    Adorns strip' (full.map next) (plain.map next) := by
  rcases adorns with rfl | ⟨cause, rfl, mild⟩
  · refine Or.inl ?_
    cases full with
    | ok value => exact congrArg Except.ok (commutes value)
    | error stop => rfl
  · exact Or.inr ⟨cause, rfl, mild⟩

end Checked.Adorns

/-- The delta without what is known about its tokens. -/
def Delta.bare (delta : Delta) : Delta := { delta with logprobs := .none }

/-- The rules without logprobs. -/
def Reporting.plain (rules : Reporting) : Reporting := { rules with withLogprobs := false }

/-- **Two scans side by side.** Up to the first token whose logprob cannot be rendered they judge
the same tokens. -/
theorem Reporting.scan_adorns (rules : Reporting) :
    ∀ (samples : List Sample) (generated : List TokenId),
      Checked.Adorns Delta.bare (rules.scan generated samples)
        (rules.plain.scan generated samples)
  | [], _ => Or.inl rfl
  | sample :: rest, generated => by
      unfold scan
      cases rendered : rules.render sample with
      | error stop =>
          obtain ⟨cause, rfl, mild⟩ := (rules.render_yields sample).of_error rendered
          exact Or.inr ⟨cause, rfl, mild⟩
      | ok logprob =>
          have bare : rules.plain.render sample = .ok none := rfl
          have judged : rules.plain.verdict = rules.verdict := rfl
          rw [bare, judged]
          show Checked.Adorns Delta.bare (rules.verdict _ _ >>= _) (rules.verdict _ _ >>= _)
          cases rules.verdict (generated ++ [sample.token]) sample.token with
          | error stop => exact Or.inl rfl
          | ok reason? =>
              cases reason? with
              | some reason => exact Or.inl rfl
              | none =>
                  rcases rules.scan_adorns rest (generated ++ [sample.token]) with
                    same | ⟨cause, refused, mild⟩
                  · refine Or.inl ?_
                    show Except.map Delta.bare (rules.scan _ rest >>= _) =
                      (rules.plain.scan _ rest >>= _)
                    rw [← same]
                    cases rules.scan (generated ++ [sample.token]) rest <;> rfl
                  · refine Or.inr ⟨cause, ?_, mild⟩
                    show (rules.scan _ rest >>= _) = _
                    rw [refused]
                    rfl

namespace Ticket

/-- A delta and the request after it, without what is known about the tokens. -/
def bareResult (result : Delta × Ticket) : Delta × Ticket := (result.1.bare, result.2)

/-- **The two attempts side by side.** -/
theorem delta_adorns (ticket : Ticket) (tokenizer : Tokenizer) (maxLength : Nat) :
    Checked.Adorns bareResult (ticket.delta tokenizer maxLength true)
      (ticket.delta tokenizer maxLength false) := by
  rw [delta_eq, delta_eq, told, told]
  split
  · exact Or.inl rfl
  · split
    · exact Or.inl rfl
    · exact ((ticket.reporting tokenizer maxLength true).scan_adorns ticket.unreported _).map
        fun _ => rfl

/-! ### Reports -/

variable {ticket next : Ticket} {tokenizer : Tokenizer} {maxLength : Nat}

/-- A refusal that is not fatal is not the end. -/
theorem unlessFatal_of_mild {cause : Failure} (mild : cause.isFatal = false) (other : Checked α) :
    unlessFatal (.error (.refused cause)) other = other := by
  show (if cause.isFatal then _ else _) = _
  rw [mild]
  rfl

/-- The report where the attempt without logprobs succeeds: nothing but logprobs can be missing. -/
theorem report_of_bare {bare : Delta}
    (plain : ticket.delta tokenizer maxLength false = .ok (bare, next)) :
    ∃ delta, ticket.report tokenizer maxLength = .ok (delta, next) ∧
      delta.tokens = bare.tokens ∧ delta.finish = bare.finish := by
  rw [report_eq, plain]
  rcases ticket.delta_adorns tokenizer maxLength with same | ⟨cause, refused, mild⟩
  · rw [plain] at same
    cases full : ticket.delta tokenizer maxLength true with
    | error stop =>
        rw [full] at same
        cases same
    | ok result =>
        rw [full] at same
        cases same
        exact ⟨result.1, rfl, rfl, rfl⟩
  · rw [refused, unlessFatal_of_mild mild]
    exact ⟨bare, rfl, rfl, rfl⟩

/-- The report where the attempt without logprobs is refused for a cause that is not fatal. -/
theorem report_of_refused {cause : Failure}
    (plain : ticket.delta tokenizer maxLength false = .error (.refused cause))
    (mild : cause.isFatal = false) :
    ticket.report tokenizer maxLength = .ok (⟨[], none, some .abort⟩, { ticket.abort with
      reported := ticket.primary.committed.length, finish := some .abort }) := by
  have unfinished : ticket.finish = none := unfinished_of_delta plain
  have given : ticket.abort.finish = none := unfinished
  obtain ⟨other, full⟩ := (ticket.delta_adorns tokenizer maxLength).of_refused plain
  have trivial : other.isFatal = false := by
    by_contra fatal
    have both := (ticket.delta_adorns tokenizer maxLength).of_stopped full fun _ same => by
      cases same
      exact Bool.not_eq_false _ |>.mp fatal
    rw [plain] at both
    cases both
    exact fatal mild
  rw [report_eq, full, unlessFatal_of_mild trivial, plain, unlessFatal_of_mild mild,
    delta_of_aborted given rfl]
  rfl

/-- Where there is no report, the attempt without logprobs cannot be put up with. -/
theorem report_stopped (ticket : Ticket) (tokenizer : Tokenizer) (maxLength : Nat) :
    Yields (ticket.report tokenizer maxLength) (fun _ => True) fun stop =>
      ticket.delta tokenizer maxLength false = .error stop ∧
        ∀ cause, stop = .refused cause → cause.isFatal = true := by
  have attempted (logprobs : Bool) : Yields (ticket.delta tokenizer maxLength logprobs)
      (fun _ => True) (fun stop => ticket.delta tokenizer maxLength logprobs = .error stop) := by
    cases ticket.delta tokenizer maxLength logprobs with
    | ok _ => trivial
    | error _ => rfl
  rw [report_eq]
  refine unlessFatal_yields (attempted true) (fun stop full fatal =>
    ⟨(ticket.delta_adorns tokenizer maxLength).of_stopped full fatal, fatal⟩) fun _ _ _ => ?_
  refine unlessFatal_yields (attempted false) (fun stop plain fatal => ⟨plain, fatal⟩)
    fun _ plain _ => ?_
  have unfinished : ticket.finish = none := unfinished_of_delta plain
  have given : ticket.abort.finish = none := unfinished
  rw [delta_of_aborted given rfl]
  trivial

/-- **Attempts agree.** What can be reported with logprobs can be reported without them, with the
same tokens, the same end and the same request afterwards; an attempt that fails leaves the request
as it was; and a request that was given up reports that, whatever its tokens are. So asking in
place, one attempt after the other, is the report; it loses or repeats no token of a request that
can report without logprobs, and it fails only where the attempt without logprobs meets a fatal
failure or a count that needs more than 64 bits. -/
theorem attempts_agree (ticket : Ticket) (tokenizer : Tokenizer) (maxLength : Nat) :
    (∀ delta next, attempt tokenizer maxLength true ticket = .ok delta next →
      ∃ bare, attempt tokenizer maxLength false ticket = .ok bare next ∧
        bare.tokens = delta.tokens ∧ bare.finish = delta.finish) ∧
    (∀ cause next, attempt tokenizer maxLength false ticket = .error (.refused cause) next →
      ∃ cause', attempt tokenizer maxLength true ticket = .error (.refused cause') ticket) ∧
    (∀ logprobs stop next, attempt tokenizer maxLength logprobs ticket = .error stop next →
      next = ticket) ∧
    (ticket.finish = none → ∀ logprobs,
      attempt tokenizer maxLength logprobs ticket.abort =
        .ok ⟨[], none, some .abort⟩ { ticket.abort with
          reported := ticket.primary.committed.length, finish := some .abort }) ∧
    ask tokenizer maxLength ticket = ticket.noted (ticket.report tokenizer maxLength) ∧
    (∀ bare next, attempt tokenizer maxLength false ticket = .ok bare next →
      ∃ delta, ask tokenizer maxLength ticket = .ok delta next ∧
        delta.tokens = bare.tokens ∧ delta.finish = bare.finish ∧
        (ticket.finish = none → ticket.abortRequested = false → ∃ n,
          delta.tokens = (ticket.unreported.take n).map Sample.token ∧
          (delta.finish = none → n = ticket.unreported.length) ∧
          next = { ticket with reported := ticket.reported + n, finish := delta.finish })) ∧
    (∀ cause next, attempt tokenizer maxLength false ticket = .error (.refused cause) next →
      cause.isFatal = false →
      ask tokenizer maxLength ticket = .ok ⟨[], none, some .abort⟩ { ticket.abort with
        reported := ticket.primary.committed.length, finish := some .abort }) ∧
    (∀ stop next, ask tokenizer maxLength ticket = .error stop next →
      attempt tokenizer maxLength false ticket = .error stop ticket ∧ next = ticket ∧
        ∀ cause, stop = .refused cause → cause.isFatal = true) := by
  have adorns := ticket.delta_adorns tokenizer maxLength
  simp only [ask_eq, attempt_eq, noted_eq_ok, noted_eq_error]
  refine ⟨fun delta next full => ?_, fun cause next plain => ?_, fun _ _ _ ended => ended.2,
    fun unfinished logprobs => ?_, trivial, fun bare next plain => ?_,
    fun cause next plain mild => ?_, fun stop next ended => ?_⟩
  · exact ⟨delta.bare, adorns.of_ok full, rfl, rfl⟩
  · obtain ⟨other, full⟩ := adorns.of_refused plain.1
    exact ⟨other, full, trivial⟩
  · have given : ticket.abort.finish = none := unfinished
    exact delta_of_aborted given rfl tokenizer maxLength logprobs
  · obtain ⟨delta, reported, tokens, finish⟩ := report_of_bare plain
    refine ⟨delta, reported, tokens, finish, fun unfinished wanted => ?_⟩
    obtain ⟨n, taken, same⟩ :=
      (delta_takes unfinished wanted tokenizer maxLength false).of_ok plain
    rw [tokens, finish]
    exact ⟨n, taken.tokens, taken.complete, same⟩
  · exact report_of_refused plain.1 mild
  · obtain ⟨plain, fatal⟩ := (report_stopped ticket tokenizer maxLength).of_error ended.1
    exact ⟨⟨plain, trivial⟩, ended.2, fatal⟩

/-- Bytes can be spelled out, other tokens can only be decoded. -/
def byteSpeller : Tokenizer :=
  { Tokenizer.bytes none with
    tokenText? := fun id => if id.toNat < 256 then some (Tokenizer.byteText id) else none }

/-- A request of one token that asks for logprobs and has a token that cannot be spelled out among
the two that it was not reported yet. -/
def unspelledTicket : Ticket :=
  let asked : Request := ⟨"a", [.tokens [1]], { GenerationSettings.usual with logprobs := 1 }⟩
  let ticket := ofRequest asked 1
  { ticket with
    primary := { ticket.primary with
      committed := [.plain 97 .one, .plain 9 .one, .plain 300 .one], pending := [] }
    reported := 1 }

/-- Its logprobs cannot be rendered, and it is told both tokens all the same. -/
theorem attempts_agree_unspelled : ∃ bare next delta,
    completed (attempt byteSpeller 1024 true) unspelledTicket = none ∧
      attempt byteSpeller 1024 false unspelledTicket = .ok bare next ∧
      ask byteSpeller 1024 unspelledTicket = .ok delta next ∧
      delta.tokens = [9, 300] ∧ delta.finish = none ∧ next.reported = 3 := by
  have ran : completed (attempt byteSpeller 1024 true) unspelledTicket = none ∧
      (completed (attempt byteSpeller 1024 false) unspelledTicket).any (fun result =>
        decide (result.1.tokens = [9, 300] ∧ result.1.finish = none ∧ result.2.reported = 3)) =
          true := by
    decide +kernel
  obtain ⟨failed, plain⟩ := ran
  obtain ⟨⟨bare, next⟩, reported, state⟩ := Option.any_eq_true .. |>.mp plain
  obtain ⟨tokens, goesOn, count⟩ := of_decide_eq_true state
  have reported := completed_eq_some.mp reported
  obtain ⟨_, _, _, _, _, fallsBack, _⟩ := attempts_agree unspelledTicket byteSpeller 1024
  obtain ⟨delta, asked, same, finish, _⟩ := fallsBack bare next reported
  exact ⟨bare, next, delta, failed, reported, asked, same.trans tokens, finish.trans goesOn, count⟩

end Ticket

end ContinuousBatching
