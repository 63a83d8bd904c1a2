/-
**Reports in place.**

A request reports in place: an attempt writes the cursor and the end of the request, and what one
attempt leaves behind is what the next one finds. An attempt writes only once its scan has come to
an end, so one that fails leaves the request as it was, and all of it can be read off as functions
of the request:

* `Ticket.attempt_eq`, `Ticket.ask_eq`: what is left behind where there is nothing to report
  (`Ticket.noted`) is the request as it was;
* `Ticket.delta_eq`: one attempt, by cases;
* `Ticket.report_eq`: the attempts that asking makes, one after the other, start from the same
  request, up to the last one, which finds it given up.
-/

import ContinuousBatching.Request.Delta

namespace ContinuousBatching.Ticket

variable {ticket next : Ticket} {tokenizer : Tokenizer} {maxLength : Nat} {delta : Delta}
  {stop : Stop}

/-- What a request reports is written into it; it stays as it is where there is no report. -/
def noted (ticket : Ticket) : Checked (Delta × Ticket) → EStateM.Result Stop Ticket Delta
  | .ok (delta, next) => .ok delta next
  | .error stop => .error stop ticket

theorem result_of_noted {action : Action Ticket Delta} {result : Checked (Delta × Ticket)}
    (ran : action ticket = ticket.noted result) : action.result ticket = result := by
  unfold Action.result
  rw [ran]
  cases result <;> rfl

theorem noted_eq_ok {result : Checked (Delta × Ticket)} :
    ticket.noted result = .ok delta next ↔ result = .ok (delta, next) := by
  cases result with
  | ok value =>
      constructor
      · rintro ⟨⟩
        rfl
      · rintro ⟨⟩
        rfl
  | error stop => exact ⟨fun same => (by cases same), fun same => by cases same⟩

theorem noted_eq_error {result : Checked (Delta × Ticket)} :
    ticket.noted result = .error stop next ↔ result = .error stop ∧ next = ticket := by
  cases result with
  | ok value => exact ⟨fun same => (by cases same), fun ⟨same, _⟩ => by cases same⟩
  | error other =>
      constructor
      · rintro ⟨⟩
        exact ⟨rfl, rfl⟩
      · rintro ⟨⟨⟩, rfl⟩
        rfl

/-! ### One attempt -/

/-- What one attempt has to report, and the request after it. -/
def told (ticket : Ticket) (tokenizer : Tokenizer) (maxLength : Nat) (logprobs : Bool) :
    Checked (Delta × Ticket) :=
  if ticket.finish.isSome then .ok (.none, ticket)
  else if ticket.abortRequested then
    .ok (⟨[], none, some .abort⟩,
      { ticket with reported := ticket.primary.committed.length, finish := some .abort })
  else do
    let rules := ticket.reporting tokenizer maxLength logprobs
    let generated := (ticket.primary.committed.take ticket.reported).map Sample.token
    let delta ← rules.scan generated ticket.unreported
    .ok (delta,
      { ticket with reported := ticket.reported + delta.tokens.length, finish := delta.finish })

/-- An attempt writes after its scan, or nothing at all. -/
theorem attempt_told (ticket : Ticket) (tokenizer : Tokenizer) (maxLength : Nat)
    (logprobs : Bool) :
    attempt tokenizer maxLength logprobs ticket =
      ticket.noted (ticket.told tokenizer maxLength logprobs) := by
  unfold attempt told
  show (if ticket.finish.isSome then _ else _ : Action Ticket Delta) ticket = _
  by_cases finished : ticket.finish.isSome
  · rw [if_pos finished, if_pos finished]
    rfl
  · rw [if_neg finished, if_neg finished]
    by_cases aborted : ticket.abortRequested
    · rw [if_pos aborted, if_pos aborted]
      rfl
    · rw [if_neg aborted, if_neg aborted]
      show EStateM.bind (Checked.toAction (Reporting.scan _ _ _)) _ ticket = _
      dsimp only
      cases (ticket.reporting tokenizer maxLength logprobs).scan _ ticket.unreported <;> rfl

/-- **One attempt**, by cases. -/
theorem delta_eq (ticket : Ticket) (tokenizer : Tokenizer) (maxLength : Nat) (logprobs : Bool) :
    ticket.delta tokenizer maxLength logprobs = ticket.told tokenizer maxLength logprobs :=
  result_of_noted (attempt_told ticket tokenizer maxLength logprobs)

/-- **An attempt that fails** leaves the request as it was. -/
theorem attempt_eq (ticket : Ticket) (tokenizer : Tokenizer) (maxLength : Nat) (logprobs : Bool) :
    attempt tokenizer maxLength logprobs ticket =
      ticket.noted (ticket.delta tokenizer maxLength logprobs) := by
  rw [delta_eq, attempt_told]

/-- One attempt of a request that was given up. -/
theorem delta_of_aborted (unfinished : ticket.finish = none)
    (aborted : ticket.abortRequested = true) (tokenizer : Tokenizer) (maxLength : Nat)
    (logprobs : Bool) :
    ticket.delta tokenizer maxLength logprobs = .ok (⟨[], none, some .abort⟩,
      { ticket with reported := ticket.primary.committed.length, finish := some .abort }) := by
  rw [delta_eq, told, unfinished, aborted]
  rfl

/-- Only a request that goes on can fail to report. -/
theorem unfinished_of_delta {logprobs : Bool}
    (failed : ticket.delta tokenizer maxLength logprobs = .error stop) : ticket.finish = none := by
  rw [delta_eq, told] at failed
  by_cases finished : ticket.finish.isSome
  · rw [if_pos finished] at failed
    cases failed
  · exact Option.not_isSome_iff_eq_none.mp finished

/-! ### One attempt after the other -/

/-- Goes on with `other` after a refusal that is not fatal. -/
def unlessFatal {α : Type} (result other : Checked α) : Checked α :=
  match result with
  | .error (.refused cause) => if cause.isFatal then .error (.refused cause) else other
  | result => result

/-- Attempts that leave nothing behind when they fail are attempts on the same request. -/
theorem unlessFatal_eq {action other : Action Ticket Delta}
    {first second : Checked (Delta × Ticket)} (now : action ticket = ticket.noted first)
    (later : ∀ cause, first = .error (.refused cause) → other ticket = ticket.noted second) :
    action.unlessFatal other ticket = ticket.noted (unlessFatal first second) := by
  unfold Action.unlessFatal unlessFatal
  rw [now]
  cases first with
  | ok result => rfl
  | error stop =>
      cases stop with
      | fault kind => rfl
      | refused cause =>
          show (if cause.isFatal then _ else _) = ticket.noted (if cause.isFatal then _ else _)
          split
          · rfl
          · exact later cause rfl

/-- What one attempt that fails leaves to the next one is the request as it was, and the last one
cannot fail. -/
theorem ask_told (ticket : Ticket) (tokenizer : Tokenizer) (maxLength : Nat) :
    ask tokenizer maxLength ticket =
      ticket.noted (unlessFatal (ticket.delta tokenizer maxLength true)
        (unlessFatal (ticket.delta tokenizer maxLength false)
          (ticket.abort.delta tokenizer maxLength true))) := by
  refine unlessFatal_eq (attempt_eq ticket tokenizer maxLength true) fun _ _ => ?_
  refine unlessFatal_eq (attempt_eq ticket tokenizer maxLength false) fun _ failed => ?_
  have unfinished : ticket.finish = none := unfinished_of_delta failed
  have given : ticket.abort.finish = none := unfinished
  show attempt tokenizer maxLength true ticket.abort = _
  rw [attempt_eq, delta_of_aborted given rfl]
  rfl

/-- **The attempts that asking makes.** -/
theorem report_eq (ticket : Ticket) (tokenizer : Tokenizer) (maxLength : Nat) :
    ticket.report tokenizer maxLength =
      unlessFatal (ticket.delta tokenizer maxLength true)
        (unlessFatal (ticket.delta tokenizer maxLength false)
          (ticket.abort.delta tokenizer maxLength true)) :=
  result_of_noted (ask_told ticket tokenizer maxLength)

/-- **Asking in vain** leaves the request as it was. -/
theorem ask_eq (ticket : Ticket) (tokenizer : Tokenizer) (maxLength : Nat) :
    ask tokenizer maxLength ticket = ticket.noted (ticket.report tokenizer maxLength) := by
  rw [report_eq, ask_told]

end ContinuousBatching.Ticket
