/-
**Engines that were not interrupted.**

A tokenizer that fails in a fatal way interrupts a step in the middle, and no step may follow. As
long as that has not happened (`Engine.Proceeds`), an engine with any tokenizer goes the way of one
whose tokenizer never fails like that, so it is at rest between two calls:

* `Cluster.step_within`: a step that comes to its end is a step with a tokenizer that is tamed;
* `Engine.Poised`: the engine is between two calls, whatever its tokenizer;
* `Engine.Proceeds.poised`: so is every engine that was not interrupted.
-/

import ContinuousBatching.Proofs.Engine.Calls
import ContinuousBatching.Proofs.Request.Tolerance

namespace ContinuousBatching

/-! ### Steps -/

namespace Cluster

variable {tokenizer : Tokenizer} {maxLength : Nat}

theorem report_within : ∀ ids : List RequestId,
    Action.Within (report tokenizer maxLength ids) (report tokenizer.tamed maxLength ids)
  | [] => .refl _
  | id :: rest => by
      unfold report
      refine Action.Within.bind ?_ fun delta => ?_
      · refine (Action.Within.refl _).bind fun ticket => ?_
        exact ((Ticket.ask_within maxLength).on _ _).on _ _
      refine (Action.Within.refl _).bind fun ticket => ?_
      exact (report_within rest).bind fun _ => .refl _

theorem process_within (ids : List RequestId) :
    Action.Within (process ids tokenizer maxLength) (process ids tokenizer.tamed maxLength) :=
  (report_within ids).bind fun _ => .refl _

/-- **A step** that comes to its end. -/
theorem step_within (settings : EngineSettings) :
    Action.Within (step tokenizer settings) (step tokenizer.tamed settings) := by
  unfold step
  refine (Action.Within.refl _).bind fun c => Action.Within.ite ?_ (.refl _)
  refine (Action.Within.refl _).bind fun admitted => ?_
  refine (Action.Within.refl _).bind fun report => ?_
  refine (Action.Within.refl _).bind fun d => ?_
  refine (Action.Within.refl _).bind fun ids => ?_
  exact (process_within ids).bind fun _ => .refl _

end Cluster

/-! ### Engines -/

namespace Engine

variable {p : Premises} {start engine after : Engine} {caches : List PagedCache}
  {tokenizer : Tokenizer} {settings : EngineSettings}

/-- An engine over these caches without requests, whether or not it writes down what happens. -/
def Opens (caches : List PagedCache) (tokenizer : Tokenizer) (settings : EngineSettings)
    (engine : Engine) : Prop :=
  ∃ built, ofReplicas (caches.map .paged) tokenizer settings = .ok built ∧
    (engine = built ∨ engine = built.traced)

/-- Calls lead from one engine to another, and none of them was a step that was interrupted: a step
that was refused left the engine as it was. -/
inductive Proceeds (start : Engine) : Engine → Prop
  | start : Proceeds start start
  | answered {engine after : Engine} {call : Call} {answer : Answer}
      (before : Proceeds start engine) (answered : engine.answer call = some (answer, after))
      (whole : call = .step → (∃ cause, answer = .refused cause) → after = engine) :
      Proceeds start after

/-- The engine is between two calls; its tokenizer may be any one. -/
structure Poised (p : Premises) (engine : Engine) : Prop where
  tamed : p.tokenizer = engine.tokenizer.tamed
  settings : engine.settings = p.settings
  slots : 0 < p.settings.maxRunning
  rest : ∃ caches, engine.cluster.AtRest p caches

/-- What is expected of caches and settings is all that is expected. -/
def premisesOf (caches : List PagedCache) (tokenizer : Tokenizer) (settings : EngineSettings)
    (replicated : caches ≠ []) (divided : ∀ cache ∈ caches, 0 < cache.pool.blockSize) :
    Premises where
  models := caches.map PagedCache.model
  tokenizer := tokenizer.tamed
  settings := settings
  replicated := by simpa using replicated
  divided := by
    intro model member
    obtain ⟨cache, there, rfl⟩ := List.mem_map.mp member
    exact divided cache there
  lenient := tokenizer.tamed_lenient

theorem ofReplicas_tokenizer {replicas : List Replica} (other : Tokenizer) {built : Engine}
    (ran : ofReplicas replicas tokenizer settings = .ok built) :
    ofReplicas replicas other settings = .ok { built with tokenizer := other } ∧ replicas ≠ [] := by
  unfold ofReplicas at ran ⊢
  cases usable : settings.validate with
  | error cause =>
      rw [usable] at ran
      cases ran
  | ok =>
      rw [usable] at ran
      by_cases none : replicas.isEmpty = true
      · rw [List.isEmpty_iff.mp none] at ran
        cases ran
      · replace ran : (if replicas.isEmpty then _ else _ : Checked Engine) = .ok built := ran
        show (if replicas.isEmpty then _ else _ : Checked Engine) = _ ∧ _
        rw [if_neg none] at ran ⊢
        obtain ⟨ids, reserved, ran⟩ := bind_eq_ok_iff.mp ran
        cases ran
        rw [reserved]
        exact ⟨rfl, fun empty => none (List.isEmpty_iff.mpr empty)⟩

/-- An engine without requests is poised. -/
theorem Opens.poised (opens : Opens caches tokenizer settings engine)
    (fresh : ∀ cache ∈ caches, cache.IsFresh)
    (divided : ∀ cache ∈ caches, 0 < cache.pool.blockSize) :
    ∃ p : Premises, p.settings = settings ∧ engine.Poised p := by
  obtain ⟨built, ran, same⟩ := opens
  obtain ⟨tamed, filled⟩ := ofReplicas_tokenizer tokenizer.tamed ran
  have replicated : caches ≠ [] := by
    rintro rfl
    exact filled rfl
  obtain ⟨_, parts⟩ := (ofReplicas_yields _ _ _).of_ok ran
  have starts : Starts (premisesOf caches tokenizer settings replicated divided)
      { engine with tokenizer := tokenizer.tamed } := by
    refine ⟨caches, _, fresh, rfl, tamed, ?_⟩
    rcases same with rfl | rfl
    · exact Or.inl rfl
    · exact Or.inr rfl
  have rests := starts.rests
  refine ⟨_, rfl, ?_, rests.settings, rests.slots, rests.rest⟩
  rcases same with rfl | rfl
  · rw [parts]
    rfl
  · rw [parts]
    rfl

namespace Poised

/-- Only the cluster has changed. -/
theorem on_cluster {c : Cluster} (poised : engine.Poised p) (rest : c.AtRest p caches) :
    Poised p { engine with cluster := c } :=
  ⟨poised.tamed, poised.settings, poised.slots, caches, rest⟩

theorem same (poised : engine.Poised p) (same : Same engine after) : after.Poised p where
  tamed := by
    rw [same.tokenizer]
    exact poised.tamed
  settings := same.settings.trans poised.settings
  slots := poised.slots
  rest := by
    rw [same.cluster]
    exact poised.rest

theorem submit_meets (poised : engine.Poised p) (submission : Submission) :
    Meets (submit submission) engine (fun _ after => after.Poised p)
      (fun _ after => after.Poised p) := by
  refine submit_rule (fun _ _ same _ => poised.same same) fun id named same => ?_
  replace poised := poised.same same
  obtain ⟨caches, rest⟩ := poised.rest
  refine (Cluster.add_meets rest _).mono ?_ ?_
  · intro _ d added
    exact poised.on_cluster (added.1.congr rfl rfl)
  · rintro _ _ ⟨rfl, _⟩
    exact poised

theorem abort_meets (poised : engine.Poised p) (id : RequestId) :
    Meets (abort id) engine (fun _ after => after.Poised p) (fun _ after => after.Poised p) := by
  obtain ⟨caches, rest⟩ := poised.rest
  unfold abort
  rw [meets_onCluster, meets_bind]
  refine (Cluster.abort_meets rest id).mono ?_ ?_
  · intro _ d given
    rw [Cluster.meets_record]
    exact poised.on_cluster (given.1.congr rfl rfl)
  · rintro _ _ ⟨rfl, _⟩
    exact poised

/-- **A step** that comes to its end. -/
theorem stepped (poised : engine.Poised p) {report : StepReport}
    (run : step engine = .ok report after) : after.Poised p := by
  obtain ⟨caches, rest⟩ := poised.rest
  have meets : Meets step engine (fun _ after => after.Poised p) (fun _ _ => True) := by
    unfold step
    rw [meets_bind, meets_get, meets_onCluster]
    refine (Meets.anyhow _ _).with_run.mono ?_ (fun _ _ _ => trivial)
    rintro report d ⟨_, ended⟩
    have within := Cluster.step_within engine.settings _ _ _ ended
    rw [← poised.tamed, poised.settings] at within
    rcases (meets_iff_of_ok within).mp (Cluster.step_meets rest) with
      ⟨_, same⟩ | ⟨_, _, batch, records, stepped⟩
    · rw [same]
      exact poised
    · obtain ⟨_, settled⟩ := stepped.rest
      exact poised.on_cluster settled
  exact (meets_iff_of_ok run).mp meets

/-- **One call.** -/
theorem answered (poised : engine.Poised p) {call : Call} {answer : Answer}
    (answered : engine.answer call = some (answer, after))
    (whole : call = .step → (∃ cause, answer = .refused cause) → after = engine) :
    after.Poised p := by
  cases call with
  | submit submission =>
      have meets : Meets (Call.run (.submit submission)) engine (fun _ after => after.Poised p)
          (fun _ after => after.Poised p) := by
        unfold Call.run
        rw [meets_map]
        exact poised.submit_meets submission
      exact of_answered (meets.mono (fun _ _ kept => kept) fun _ _ kept _ _ => kept) answered
  | abort id =>
      have meets : Meets (Call.run (.abort id)) engine (fun _ after => after.Poised p)
          (fun _ after => after.Poised p) := by
        unfold Call.run
        rw [meets_map]
        exact poised.abort_meets id
      exact of_answered (meets.mono (fun _ _ kept => kept) fun _ _ kept _ _ => kept) answered
  | step =>
      let ended : Answer → Engine → Prop := fun answer after =>
        (∃ report, step engine = .ok report after) ∨ ∃ cause, answer = .refused cause
      have meets : Meets (Call.run .step) engine ended
          (fun stop after => ∀ cause, stop = .refused cause → ended (.refused cause) after) := by
        unfold Call.run
        rw [meets_map]
        exact (Meets.anyhow _ _).with_run.mono (fun report _ run => Or.inl ⟨report, run.2⟩)
          fun _ _ _ cause _ => Or.inr ⟨cause, rfl⟩
      rcases of_answered meets answered with ⟨report, run⟩ | refused
      · exact poised.stepped run
      · rw [whole rfl refused]
        exact poised

end Poised

/-- **An engine that was not interrupted** is between two calls. -/
theorem Proceeds.poised (proceeds : start.Proceeds engine) (poised : start.Poised p) :
    engine.Poised p := by
  induction proceeds with
  | start => exact poised
  | answered _ answered whole ih => exact ih.answered answered whole

/-- Calls that are all carried out interrupt nothing. -/
theorem Proceeds.of_serve {calls : List Call} {answers : List Answer}
    (proceeds : start.Proceeds engine) (served : engine.serve calls = some (answers, after))
    (carried : ∀ cause, .refused cause ∉ answers) : start.Proceeds after := by
  induction calls generalizing engine answers with
  | nil =>
      cases served
      exact proceeds
  | cons call rest ih =>
      obtain ⟨first, middle, later, answered, onwards, rfl⟩ := serve_cons.mp served
      have next : start.Proceeds middle := by
        refine proceeds.answered answered fun _ refused => ?_
        obtain ⟨cause, rfl⟩ := refused
        exact absurd List.mem_cons_self (carried cause)
      exact ih next onwards fun cause member => carried cause (List.mem_cons_of_mem _ member)

end Engine

end ContinuousBatching
