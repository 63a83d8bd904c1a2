/-
**A run never contradicts itself.**

At rest the audit finds nothing (`Cluster.AtRest.audit`), whatever calls were made before and
however they were answered. A step can therefore fail in one way only: it finds nobody to admit, and
nobody runs or one request alone cannot be fed, which are the two places where a step itself gives
up (`Cluster.Jams`). Everything that a step relies on between these places holds:

* `Engine.step_of_reached`: the audit passes, and a step succeeds, or it is refused at one of the
  two places and changes nothing, or a length needs more than 64 bits.
-/

import ContinuousBatching.Proofs.Engine.Calls
import ContinuousBatching.Proofs.Scheduler.Audit

namespace ContinuousBatching

/-- **The audit** of a cluster at rest finds nothing. -/
theorem Cluster.AtRest.audit {p : Premises} {c : Cluster} {caches : List PagedCache}
    (rest : c.AtRest p caches) : c.scheduler.audit = .ok () := by
  have consistent := rest.live.consistent
  refine Scheduler.audit_eq_ok consistent (fun id runs ticket found => ?_)
    fun id waits ticket found lane member => ?_
  · have drained := (rest.settled id ticket found).drained runs _ Ticket.primary_mem_lanes
    exact ⟨drained.pending, drained.committed⟩
  · have idle : id ∉ c.scheduler.running := fun runs =>
      consistent.not_waiting_of_running runs waits
    have stands := rest.live.stands id ticket found
    obtain ⟨place, lane_at⟩ := List.mem_iff_getElem?.mp member
    have bound := (List.getElem?_eq_some_iff.mp lane_at).1
    rw [stands.laned] at bound
    have alone := stands.alone place lane _ lane_at (List.getElem?_eq_getElem bound)
    exact ⟨alone.drafts, (stands.primed idle lane member).pending_ne_nil stands.asked⟩

namespace Engine

variable {p : Premises} {engine : Engine}

/-- An engine that is reached passes the audit. -/
theorem Reached.audit (reached : engine.Reached p) :
    engine.cluster.scheduler.audit = .ok () := by
  obtain ⟨caches, rest⟩ := reached.rests.rest
  exact rest.audit

/-- **The only way in which a step fails.** Whatever calls were made before, refused ones among
them, a step is refused only where it finds nobody to feed, with nothing changed; and after every
call that is answered the audit finds nothing. -/
theorem step_of_reached (reached : engine.Reached p) :
    engine.cluster.scheduler.audit = .ok () ∧
      ((∃ report after, step engine = .ok report after) ∨
        (step engine = .error (.refused .outOfBlocks) engine ∧
          engine.cluster.Jams p.settings.maxRunning) ∨
        (∃ after, step engine = .error (.fault .overflow) after ∧
          Count.limit ≤ engine.cluster.load)) ∧
      ∀ call : Call,
        (∃ answer after, engine.answer call = some (answer, after) ∧
          after.cluster.scheduler.audit = .ok ()) ∨
        (∃ after, call.run engine = .error (.fault .overflow) after ∨
          call.run engine = .error (.fault .outOfMemory) after) := by
  have rests := reached.rests
  refine ⟨reached.audit, ?_, fun call => ?_⟩
  · rcases (step_meets rests).ends with
      ⟨report, after, run, _⟩ | ⟨_, after, run, ⟨rfl, large⟩ | ⟨rfl, rfl, _, _, jams⟩⟩
    · exact Or.inl ⟨report, after, run⟩
    · exact Or.inr (Or.inr ⟨after, run, large⟩)
    · exact Or.inr (Or.inl ⟨run, jams⟩)
  · have answered : ∀ {answer after}, engine.answer call = some (answer, after) →
        after.cluster.scheduler.audit = .ok () := by
      intro answer after answered
      have served : engine.serve [call] = some ([answer], after) :=
        serve_cons.mpr ⟨answer, after, [], answered, rfl, rfl⟩
      exact (reached.served served).audit
    rcases (call_meets rests call).ends with
      ⟨value, after, run, _⟩ | ⟨_, after, run, (rfl | ⟨cause, rfl⟩) | rfl, _⟩
    · have here : engine.answer call = some (value, after) := by
        rw [answer, run]
      exact Or.inl ⟨value, after, here, answered here⟩
    · exact Or.inr ⟨after, Or.inl run⟩
    · have here : engine.answer call = some (.refused cause, after) := by
        rw [answer, run]
      exact Or.inl ⟨.refused cause, after, here, answered here⟩
    · exact Or.inr ⟨after, Or.inr run⟩

/-- After a refused step and another call it is still so. -/
theorem step_of_reached_crowded : ∃ answers engine,
    tinyEngine.serve (crowdedCalls ++ [.step, .abort "a"]) = some (answers, engine) ∧
      .refused .outOfBlocks ∈ answers ∧ engine.Reached tinyPremises ∧
      engine.cluster.scheduler.audit = .ok () ∧
      ((∃ report after, step engine = .ok report after) ∨
        (step engine = .error (.refused .outOfBlocks) engine ∧
          engine.cluster.Jams tinyPremises.settings.maxRunning) ∨
        (∃ after, step engine = .error (.fault .overflow) after ∧
          Count.limit ≤ engine.cluster.load)) := by
  have refused : ((tinyEngine.serve (crowdedCalls ++ [.step, .abort "a"])).map Prod.fst).any
      (fun answers => answers.contains (.refused .outOfBlocks)) = true := by
    decide +kernel
  cases served : tinyEngine.serve (crowdedCalls ++ [.step, .abort "a"]) with
  | none =>
      rw [served] at refused
      cases refused
  | some ending =>
      obtain ⟨answers, engine⟩ := ending
      rw [served] at refused
      have reached : engine.Reached tinyPremises :=
        ⟨tinyEngine, _, answers, starts_tinyEngine, served⟩
      obtain ⟨audited, stepped, _⟩ := step_of_reached reached
      exact ⟨answers, engine, rfl, List.contains_iff_mem.mp refused, reached, audited, stepped⟩

end Engine

end ContinuousBatching
