/-
**The limits of a request.**

A request says how many tokens it may generate, and an engine how long a sequence may become. Both
limits are looked at only when a token is reported, so that nothing keeps the first token from being
generated: a limit that allows no token is exceeded by one.

* `Limits.Kept`: what can be promised of the tokens that a request is told;
* `Reporting.scan_keeps`: a scan keeps the limits as long as there was room for a token before it;
* `Ticket.Metered`: a request that goes on has room for a token, and `Ticket.report_metered`: a
  report keeps that and the limits.
-/

import ContinuousBatching.Proofs.Request.Report
import ContinuousBatching.Proofs.Scheduler.Line

namespace ContinuousBatching

/-- What limits the tokens of a request. -/
structure Limits where
  /-- The number of tokens that may be generated. -/
  maxTokens : Nat
  /-- The number of positions of the input. -/
  inputLength : Nat
  /-- The largest number of positions, those of the input included. -/
  maxLength : Nat
  deriving DecidableEq

/-- The limits of a request where sequences have at most so many positions. -/
def Request.limits (request : Request) (maxLength : Nat) : Limits :=
  ⟨request.settings.maxTokens, request.inputLength, maxLength⟩

/-- The limits by which one request reports. -/
def Reporting.limits (rules : Reporting) : Limits :=
  ⟨rules.settings.maxTokens, rules.inputLength, rules.maxLength⟩

namespace Limits

variable {limits : Limits} {n m : Nat}

/-- So many tokens are within both limits. -/
structure Allow (limits : Limits) (n : Nat) : Prop where
  tokens : n ≤ limits.maxTokens
  length : limits.inputLength + n ≤ limits.maxLength

/-- The limits are kept, if they allow a token at all; otherwise there is one token at most. -/
structure Kept (limits : Limits) (n : Nat) : Prop where
  allowed : limits.Allow 1 → limits.Allow n
  single : ¬ limits.Allow 1 → n ≤ 1

/-- A report may go on after so many tokens: they are within the limits with one token more, unless
there are none. -/
def Open (limits : Limits) (n : Nat) : Prop := n = 0 ∨ limits.Allow (n + 1)

theorem open_zero : limits.Open 0 := Or.inl rfl

theorem Allow.anti (allowed : limits.Allow n) (less : m ≤ n) : limits.Allow m :=
  ⟨Nat.le_trans less allowed.tokens, Nat.le_trans (Nat.add_le_add_left less _) allowed.length⟩

theorem Kept.anti (kept : limits.Kept n) (less : m ≤ n) : limits.Kept m :=
  ⟨fun one => (kept.allowed one).anti less, fun none => Nat.le_trans less (kept.single none)⟩

theorem Allow.kept (allowed : limits.Allow n) (some : 0 < n) : limits.Kept n :=
  ⟨fun _ => allowed, fun none => absurd (allowed.anti some) none⟩

/-- **One token more** keeps the limits where a report may go on. -/
theorem Open.kept_succ (goesOn : limits.Open n) : limits.Kept (n + 1) := by
  rcases goesOn with rfl | allowed
  · exact ⟨fun one => one, fun _ => Nat.le_refl 1⟩
  · exact allowed.kept (Nat.succ_pos n)

theorem Open.kept (goesOn : limits.Open n) : limits.Kept n := goesOn.kept_succ.anti (Nat.le_succ n)

end Limits

/-- **A scan** after tokens at which a report may go on keeps the limits, and a report may go on
after it unless it finishes the request. -/
theorem Reporting.scan_keeps (rules : Reporting) : ∀ (samples : List Sample)
    (generated : List TokenId), rules.limits.Open generated.length →
    Yields (rules.scan generated samples)
      (fun delta => delta.tokens.length ≤ samples.length ∧
        rules.limits.Kept (generated.length + delta.tokens.length) ∧
        (delta.finish = none → rules.limits.Open (generated.length + delta.tokens.length)))
      (fun _ => True)
  | [], _, goesOn => ⟨Nat.le_refl 0, goesOn.kept, fun _ => goesOn⟩
  | sample :: rest, generated, goesOn => by
      have length : (generated ++ [sample.token]).length = generated.length + 1 := by simp
      unfold scan
      rw [yields_bind]
      refine (Yields.anyhow _).mono (fun text? _ => ?_) (fun _ _ => trivial)
      rw [yields_bind]
      refine (verdict_yields rules _ _).mono (fun reason? room => ?_) (fun _ _ => trivial)
      cases reason? with
      | some reason =>
          exact ⟨Nat.succ_le_succ (Nat.zero_le _), goesOn.kept_succ, fun none => by cases none⟩
      | none =>
          have more : rules.limits.Open (generated ++ [sample.token]).length :=
            Or.inr ⟨(room rfl).1, (room rfl).2⟩
          rw [yields_bind]
          refine (scan_keeps rules rest _ more).mono ?_ (fun _ _ => trivial)
          rintro later ⟨within, kept, goesOn⟩
          have sum : generated.length + (later.cons sample.token text?).tokens.length =
              (generated ++ [sample.token]).length + later.tokens.length := by
            rw [length, Delta.cons, List.length_cons]
            omega
          rw [yields_ok, sum]
          exact ⟨Nat.succ_le_succ within, kept, goesOn⟩

namespace Ticket

variable {request : Request} {maxLength told : Nat} {ticket next : Ticket} {tokenizer : Tokenizer}

/-- The ticket of a request counts as many tokens as reported as the request was told, or more; if
the request goes on, there is room for another token. -/
structure Metered (request : Request) (maxLength told : Nat) (ticket : Ticket) : Prop where
  same : ticket.request = request
  told : told ≤ ticket.reported
  within : ticket.reported ≤ ticket.primary.committed.length
  goesOn : ticket.finish = none → (request.limits maxLength).Open ticket.reported

namespace Metered

theorem grows (metered : ticket.Metered request maxLength told) (grows : ticket.Grows next) :
    next.Metered request maxLength told where
  same := grows.request.trans metered.same
  told := grows.reported ▸ metered.told
  within := grows.reported ▸ Nat.le_trans metered.within grows.committed.length_le
  goesOn := fun unfinished => by
    rw [grows.reported]
    exact metered.goesOn (grows.finish.symm.trans unfinished)

theorem anti {less : Nat} (metered : ticket.Metered request maxLength told) (le : less ≤ told) :
    ticket.Metered request maxLength less :=
  ⟨metered.same, Nat.le_trans le metered.told, metered.within, metered.goesOn⟩

end Metered

/-- What a report does to a request that was told so many tokens. -/
structure Meters (request : Request) (maxLength told : Nat) (result : Delta × Ticket) : Prop where
  kept : (request.limits maxLength).Kept (told + result.1.tokens.length)
  metered : result.2.Metered request maxLength (told + result.1.tokens.length)

/-- **One attempt to report** keeps the limits. -/
theorem delta_metered (kept : (request.limits maxLength).Kept told)
    (metered : ticket.Metered request maxLength told) (tokenizer : Tokenizer) (logprobs : Bool) :
    Yields (ticket.delta tokenizer maxLength logprobs) (Meters request maxLength told)
      (fun _ => True) := by
  cases finished : ticket.finish with
  | some reason =>
      rw [delta_eq, Ticket.told, finished]
      exact ⟨kept, metered⟩
  | none =>
      cases aborted : ticket.abortRequested with
      | true =>
          rw [delta_of_aborted finished aborted]
          exact ⟨kept, metered.same, Nat.le_trans metered.told metered.within, Nat.le_refl _,
            fun goesOn => by cases goesOn⟩
      | false =>
          have goesOn := metered.goesOn finished
          have length : ((ticket.primary.committed.take ticket.reported).map Sample.token).length =
              ticket.reported := by
            rw [List.length_map, List.length_take, Nat.min_eq_left metered.within]
          have rules : (ticket.reporting tokenizer maxLength logprobs).limits =
              request.limits maxLength := by
            rw [← metered.same]
            rfl
          rw [delta_eq, Ticket.told, finished, aborted, if_neg (by decide), if_neg (by decide)]
          dsimp only
          rw [yields_bind]
          refine (Reporting.scan_keeps _ _ _ (by rwa [rules, length])).mono ?_
            (fun _ _ => trivial)
          rintro delta ⟨within, kept, goesOn⟩
          rw [rules, length] at kept goesOn
          rw [unreported, List.length_drop] at within
          have less := metered.told
          have committed := metered.within
          exact ⟨kept.anti (by dsimp only; omega), metered.same, by dsimp only; omega,
            by dsimp only; omega, goesOn⟩

/-- **A report** keeps the limits, whichever attempt it is made with. -/
theorem report_metered (kept : (request.limits maxLength).Kept told)
    (metered : ticket.Metered request maxLength told) (tokenizer : Tokenizer) :
    Yields (ticket.report tokenizer maxLength) (Meters request maxLength told)
      (fun _ => True) := by
  have attempt := delta_metered kept metered tokenizer
  rw [report_eq]
  refine unlessFatal_yields (attempt true) (fun _ _ _ => trivial) fun _ _ _ => ?_
  refine unlessFatal_yields (attempt false) (fun _ _ _ => trivial) fun _ _ _ => ?_
  exact delta_metered kept (metered.grows .abort) tokenizer true

end Ticket

end ContinuousBatching
