/-
**The trace of an engine.**

Between two calls the stage to which the events of a request lead is the queue where the request
stands (`Cluster.Stands`). Each call keeps this up by what it writes down, also a step that is
refused, which writes nothing: room is only made if that helps.

* `Moved.stands`: the entries of a step lead every request to where it stands afterwards;
* `Engine.call_writes`: the same for every call;
* `Engine.Traces.served`: the same for a run of calls;
* `Engine.trace_spells_lifecycle`: the events of a request that was submitted once.
-/

import ContinuousBatching.Proofs.Engine.Journal
import ContinuousBatching.Proofs.Request.Lifecycle

namespace ContinuousBatching

namespace Cluster

variable {c d : Cluster} {id : RequestId} {stage : Stage}

/-- Where a request stands between two calls if it has come to a stage. -/
def Stands (c : Cluster) (id : RequestId) : Stage → Prop
  | .waiting => id ∈ c.scheduler.waiting
  | .running => id ∈ c.scheduler.running
  | .marked => id ∈ c.scheduler.running ∧ c.scheduler.givenUp id = true
  | .started => False
  | .unknown | .dropped | .ended => id ∉ c.scheduler.running ++ c.scheduler.waiting

/-- A request runs exactly at the stages that say so. -/
theorem Stands.running_iff (tidy : c.scheduler.Tidy) (stands : c.Stands id stage) :
    id ∈ c.scheduler.running ↔ stage = .started ∨ stage = .running ∨ stage = .marked := by
  cases stage with
  | waiting => simpa using fun runs => tidy.not_waiting runs stands
  | running => simpa [Stands] using stands
  | marked => simpa using stands.1
  | started => exact stands.elim
  | unknown | dropped | ended => simpa using fun runs => stands (List.mem_append_left _ runs)

theorem Stands.waiting_iff (tidy : c.scheduler.Tidy) (stands : c.Stands id stage) :
    id ∈ c.scheduler.waiting ↔ stage = .waiting := by
  cases stage with
  | waiting => simpa [Stands] using stands
  | running => simpa using tidy.not_waiting stands
  | marked => simpa using tidy.not_waiting stands.1
  | started => exact stands.elim
  | unknown | dropped | ended => simpa using fun waits => stands (List.mem_append_right _ waits)

/-- A request about which nothing has changed. -/
theorem Stands.congr (stands : c.Stands id stage)
    (running : id ∈ d.scheduler.running ↔ id ∈ c.scheduler.running)
    (waiting : id ∈ d.scheduler.waiting ↔ id ∈ c.scheduler.waiting)
    (given : id ∈ c.scheduler.running → c.scheduler.givenUp id = true →
      d.scheduler.givenUp id = true) : d.Stands id stage := by
  cases stage with
  | waiting => exact waiting.mpr stands
  | running => exact running.mpr stands
  | marked => exact ⟨running.mpr stands.1, given stands.1 stands.2⟩
  | started => exact stands
  | unknown | dropped | ended =>
      refine fun queued => stands (List.mem_append.mpr ?_)
      exact (List.mem_append.mp queued).imp running.mp waiting.mp

/-! ### A step -/

section Step

variable {admitted preempted finished : List RequestId} {entries : Trace}

/-- Whoever was given up and still runs is still given up. -/
theorem Moved.given (moved : c.Moved admitted preempted finished entries d)
    (given : c.scheduler.givenUp id = true) (runs : id ∈ d.scheduler.running) :
    d.scheduler.givenUp id = true := by
  by_contra spared
  have queued := List.mem_append_left d.scheduler.waiting runs
  have member : id ∈ d.scheduler.line :=
    List.mem_filter.mpr ⟨queued, by rw [Bool.eq_false_of_not_eq_true spared]; rfl⟩
  have was := (List.mem_filter.mp (moved.orderly.line.subset member)).2
  rw [given] at was
  cases was

/-- The events of a request in a step. -/
def eventsFor (admitted preempted finished : List RequestId) (id : RequestId) : List Event :=
  (if id ∈ admitted then [.admitted, .prefilled] else []) ++
    (if id ∈ preempted then [.preempted] else []) ++ if id ∈ finished then [.finished] else []

/-- A request that is fed in a step: it ran before, or it was admitted. -/
theorem Moved.fed (tidy : c.scheduler.Tidy) (moved : c.Moved admitted preempted finished entries d)
    (stands : c.Stands id stage) (runs : id ∈ c.scheduler.running ∨ id ∈ admitted) :
    ∃ fed, stage.follow? (if id ∈ admitted then [.admitted, .prefilled] else []) = some fed ∧
      (fed = .running ∨ fed = .marked ∧ c.scheduler.givenUp id = true) := by
  obtain ⟨rest, before, _⟩ := moved.waiting
  have admits : id ∈ admitted → id ∈ c.scheduler.waiting := fun member =>
    before ▸ List.mem_append_left rest member
  by_cases new : id ∈ admitted
  · obtain rfl := (stands.waiting_iff tidy).mp (admits new)
    rw [if_pos new]
    exact ⟨.running, rfl, Or.inl rfl⟩
  · have running := runs.resolve_right new
    rw [if_neg new]
    rcases (stands.running_iff tidy).mp running with rfl | rfl | rfl
    · exact stands.elim
    · exact ⟨.running, rfl, Or.inl rfl⟩
    · exact ⟨.marked, rfl, Or.inr ⟨rfl, stands.2⟩⟩

/-- **What a step does to a request** leads it to where it stands afterwards. -/
theorem Moved.stands (tidy : c.scheduler.Tidy)
    (moved : c.Moved admitted preempted finished entries d) (stands : c.Stands id stage) :
    ∃ later, stage.follow? (eventsFor admitted preempted finished id) = some later ∧
      d.Stands id later := by
  obtain ⟨rest, before, after⟩ := moved.waiting
  have once := tidy.nodup
  rw [before, ← List.append_assoc] at once
  obtain ⟨started, _, apart⟩ := List.nodup_append.mp once
  have separate := moved.running.nodup_iff.mp started
  have either := moved.running.mem_iff (a := id)
  rw [List.mem_append, List.mem_append, List.mem_append] at either
  unfold eventsFor
  by_cases runs : id ∈ c.scheduler.running ∨ id ∈ admitted
  · have absent : id ∉ rest := fun member =>
      apart id (List.mem_append.mpr runs) id member rfl
    obtain ⟨fed, led, standing⟩ := moved.fed tidy stands runs
    obtain ⟨unended, _, gone⟩ := List.nodup_append.mp separate
    have kept := (List.nodup_append.mp unended).2.2
    rw [List.append_assoc, Stage.follow?_append, led, Option.bind_some]
    rcases either.mp runs with (sent | ended) | goesOn
    · -- it was not given up, as it was preempted
      have spared : c.scheduler.givenUp id = false := by
        simpa using (List.mem_filter.mp (moved.spared sent)).2
      obtain rfl : fed = .running := standing.resolve_right fun given => by
        rw [spared] at given
        cases given.2
      have unfinished : id ∉ finished := fun member => kept id sent id member rfl
      rw [if_pos sent, if_neg unfinished]
      refine ⟨.waiting, rfl, ?_⟩
      show id ∈ d.scheduler.waiting
      rw [after]
      exact List.mem_append_left _ (List.mem_reverse.mpr sent)
    · have unsent : id ∉ preempted := fun member => kept id member id ended rfl
      rw [if_neg unsent, if_pos ended]
      refine ⟨.ended, ?_, fun queued => ?_⟩
      · rcases standing with rfl | ⟨rfl, _⟩ <;> rfl
      · rw [List.mem_append, after, List.mem_append, List.mem_reverse] at queued
        rcases queued with runs | sent | waits
        · exact gone id (List.mem_append_right _ ended) id runs rfl
        · exact unsent sent
        · exact absent waits
    · have unmoved : id ∉ preempted ++ finished := fun member => gone id member id goesOn rfl
      rw [List.mem_append, not_or] at unmoved
      rw [if_neg unmoved.1, if_neg unmoved.2]
      refine ⟨fed, rfl, ?_⟩
      rcases standing with rfl | ⟨rfl, given⟩
      · exact goesOn
      · exact ⟨goesOn, moved.given given goesOn⟩
  · have elsewhere := either.not.mp runs
    rw [not_or] at runs
    rw [not_or, not_or] at elsewhere
    rw [if_neg runs.2, if_neg elsewhere.1.1, if_neg elsewhere.1.2]
    refine ⟨stage, rfl, stands.congr ⟨fun now => absurd now elsewhere.2,
      fun was => absurd was runs.1⟩ ?_ fun was => absurd was runs.1⟩
    rw [before, after, List.mem_append, List.mem_append, List.mem_reverse]
    exact or_congr_left ⟨fun sent => absurd sent elsewhere.1.1, fun new => absurd new runs.2⟩

/-- What a step writes down about a request. -/
theorem Moved.eventsOf_entries (tidy : c.scheduler.Tidy) {report : StepReport}
    (moved : c.Moved report.admitted report.preempted report.finished entries d)
    (id : RequestId) : report.entries.eventsOf id =
      eventsFor report.admitted report.preempted report.finished id := by
  obtain ⟨rest, before, _⟩ := moved.waiting
  have once := tidy.nodup
  rw [before, ← List.append_assoc] at once
  have started := (List.nodup_append.mp once).1
  obtain ⟨unended, _⟩ := List.nodup_append.mp (moved.running.nodup_iff.mp started)
  obtain ⟨sent, ended, _⟩ := List.nodup_append.mp unended
  have new := (List.nodup_append.mp started).2.1
  rw [StepReport.entries, Trace.eventsOf_append, Trace.eventsOf_append, Trace.eventsOf_append,
    Trace.eventsOf_ofEvent _ new, Trace.eventsOf_ofEvent _ new, Trace.eventsOf_ofEvent _ sent,
    Trace.eventsOf_ofEvent _ ended, eventsFor]
  by_cases member : id ∈ report.admitted <;> simp [member]

end Step

end Cluster

/-! ### Calls -/

/-- What was written down leads every request to where it stands afterwards, and tells whether it
was submitted. -/
structure Engine.Writes (engine : Engine) (answer : Answer) (after : Engine) (entries : Trace) :
    Prop where
  notes : engine.cluster.Notes entries after.cluster
  stands : ∀ id stage, engine.cluster.Stands id stage →
    ∃ later, stage.follow? (entries.eventsOf id) = some later ∧ after.cluster.Stands id later
  submitted : ∀ id, (entries.eventsOf id).count .requested = [answer].count (.named id)

namespace Engine

variable {p : Premises} {engine after : Engine} {id : RequestId} {answer : Answer}

/-- Nothing was written down. -/
theorem Same.writes (same : Same engine after) (unnamed : ∀ id, answer ≠ .named id) :
    engine.Writes answer after [] where
  notes := by
    rw [same.cluster]
    exact (Cluster.Mute.refl _).notes
  stands := fun id stage stands => ⟨stage, rfl, same.cluster ▸ stands⟩
  submitted := fun id => (List.count_eq_zero.mpr fun member =>
    unnamed id (List.mem_singleton.mp member).symm).symm

theorem submit_notes (engine : Engine) (submission : Submission) :
    Meets (submit submission) engine
      (fun id after => engine.cluster.Notes [⟨id, .requested⟩] after.cluster)
      (fun _ _ => True) := by
  refine submit_rule (fun _ _ _ _ => trivial) fun id named same => ?_
  rw [← same.cluster]
  refine Meets.mono (Cluster.onScheduler_mute _ _) (fun _ d mute => ?_) fun _ _ _ => trivial
  exact mute.notes_trans (Cluster.record_notes id .requested d)

/-- **Submitting a request.** It was not known, or not any more. -/
theorem submit_writes (tidy : engine.cluster.scheduler.Tidy) (submission : Submission) :
    Meets (submit submission) engine
      (fun id after => engine.Writes (.named id) after [⟨id, .requested⟩])
      (fun _ after => Same engine after) := by
  refine ((submit_adds engine submission).and (submit_notes engine submission)).mono ?_
    (fun _ _ stop => stop.1)
  rintro id after ⟨⟨_, fresh, count, added⟩, notes⟩
  have absent : id ∉ engine.cluster.scheduler.running ++ engine.cluster.scheduler.waiting :=
    fun queued => fresh (tidy.known id queued)
  have waiting : ∀ other, other ∈ after.cluster.scheduler.waiting ↔
      other ∈ engine.cluster.scheduler.waiting ∨ other = id := fun other => by
    rw [added]
    exact List.mem_append.trans (or_congr_right List.mem_singleton)
  refine ⟨notes, fun other stage stands => ?_, fun other => ?_⟩
  · rw [Trace.eventsOf_singleton]
    by_cases here : other = id
    · subst here
      rw [if_pos rfl]
      refine ⟨.waiting, ?_, (waiting other).mpr (Or.inr rfl)⟩
      cases stage with
      | waiting => exact absurd (List.mem_append_right _ stands) absent
      | running => exact absurd (List.mem_append_left _ stands) absent
      | marked => exact absurd (List.mem_append_left _ stands.1) absent
      | started => exact stands.elim
      | unknown | dropped | ended => rfl
    · rw [if_neg here]
      refine ⟨stage, rfl, stands.congr ?_ ?_ fun _ given => ?_⟩
      · rw [added]
        exact Iff.rfl
      · exact (waiting other).trans (or_iff_left here)
      · rw [added, Scheduler.added, Scheduler.givenUp, Registry.get?_insert, if_neg here]
        exact given
  · rw [Trace.eventsOf_singleton]
    by_cases here : other = id
    · rw [if_pos here, here, List.count_singleton_self, List.count_singleton_self]
    · have differ : Answer.named id ≠ .named other := fun same => here (Answer.named.inj same).symm
      rw [if_neg here, List.count_nil, List.count_singleton, beq_eq_false_iff_ne.mpr differ]
      rfl

/-- **Giving a request up.** If it waits, it is dropped; if it runs, it goes on. -/
theorem abort_writes (rests : engine.Rests p) (id : RequestId) :
    Meets (abort id) engine
      (fun _ after => engine.Writes .done after [⟨id, .aborted⟩])
      (fun _ after => Same engine after) := by
  obtain ⟨caches, rest⟩ := rests.rest
  have tidy := rest.live.consistent.tidy
  unfold abort
  rw [meets_onCluster, meets_bind, Cluster.meets_onScheduler]
  refine (Scheduler.abort_meets rest.live.consistent id).mono ?_ ?_
  · intro _ s changed
    rw [Cluster.meets_record]
    refine ⟨rfl, fun other stage stands => ?_, fun other => ?_⟩
    · rw [Trace.eventsOf_singleton]
      by_cases here : other = id
      · subst here
        rw [if_pos rfl]
        rcases changed with ⟨runs, ticket, found, rfl⟩ | ⟨waits, ids, _, rfl⟩
        · refine ⟨.marked, ?_, runs, ?_⟩
          · rcases (stands.running_iff tidy).mp runs with rfl | rfl | rfl
            · exact stands.elim
            · rfl
            · rfl
          · show ((engine.cluster.scheduler.tickets.insert other ticket.abort).get? other).any _ = _
            rw [Registry.get?_insert, if_pos rfl]
            rfl
        · obtain rfl := (stands.waiting_iff tidy).mp waits
          refine ⟨.dropped, rfl, fun queued => ?_⟩
          rcases List.mem_append.mp queued with runs | still
          · exact tidy.not_waiting runs waits
          · exact (List.nodup_append.mp tidy.nodup).2.1.not_mem_erase still
      · rw [if_neg here]
        refine ⟨stage, rfl, ?_⟩
        rcases changed with ⟨runs, ticket, found, rfl⟩ | ⟨waits, ids, _, rfl⟩
        · refine stands.congr Iff.rfl Iff.rfl fun _ given => ?_
          show ((engine.cluster.scheduler.tickets.insert id ticket.abort).get? other).any _ = _
          rw [Registry.get?_insert, if_neg here]
          exact given
        · refine stands.congr Iff.rfl (List.mem_erase_of_ne here) fun _ given => ?_
          show ((engine.cluster.scheduler.tickets.erase id).get? other).any _ = _
          rw [Registry.get?_erase, if_neg here]
          exact given
    · rw [Trace.eventsOf_singleton]
      split <;> rfl
  · rintro _ _ ⟨rfl, _⟩
    exact .refl engine

/-- **A step.** A step that is refused writes nothing down. -/
theorem step_writes (rests : engine.Rests p) :
    Meets step engine
      (fun report after => engine.Writes (.stepped report) after report.entries)
      (fun stop after => stop = .fault .overflow ∨ Same engine after) := by
  obtain ⟨caches, rest⟩ := rests.rest
  have tidy := rest.live.consistent.tidy
  have moves : Meets step engine
      (fun report after => engine.cluster.Moved report.admitted report.preempted report.finished
        report.entries after.cluster)
      (fun _ _ => True) := by
    unfold step
    rw [meets_bind, meets_get, meets_onCluster]
    exact Cluster.step_moves tidy _ _
  refine ((step_advances rests).and moves).mono ?_ ?_
  · rintro report after ⟨_, moved⟩
    have events := moved.eventsOf_entries tidy
    refine ⟨moved.notes, fun id stage stands => ?_, fun id => ?_⟩
    · rw [events]
      exact moved.stands tidy stands
    · rw [events, Cluster.eventsFor]
      split <;> split <;> split <;> rfl
  · rintro stop after ⟨⟨_, overflow | ⟨_, rfl, _⟩⟩, _⟩
    · exact Or.inl overflow.1
    · exact Or.inr (.refl after)

/-- **A call** writes down what it does. -/
theorem answer_writes (rests : engine.Rests p) {call : Call}
    (answered : engine.answer call = some (answer, after)) :
    ∃ entries, engine.Writes answer after entries := by
  obtain ⟨caches, rest⟩ := rests.rest
  have tidy := rest.live.consistent.tidy
  have refused : ∀ {after : Engine} (cause : Failure), Same engine after →
      ∃ entries, engine.Writes (.refused cause) after entries := fun cause same =>
    ⟨[], same.writes fun _ => Answer.noConfusion⟩
  suffices meets : Meets call.run engine
      (fun answer after => ∃ entries, engine.Writes answer after entries)
      (fun stop after => ∀ cause, stop = .refused cause →
        ∃ entries, engine.Writes (.refused cause) after entries) from of_answered meets answered
  cases call with
  | submit submission =>
      unfold Call.run
      rw [meets_map]
      exact (submit_writes tidy submission).mono (fun _ _ writes => ⟨_, writes⟩)
        fun _ _ same cause _ => refused cause same
  | abort id =>
      unfold Call.run
      rw [meets_map]
      exact (abort_writes rests id).mono (fun _ _ writes => ⟨_, writes⟩)
        fun _ _ same cause _ => refused cause same
  | step =>
      unfold Call.run
      rw [meets_map]
      refine (step_writes rests).mono (fun _ _ writes => ⟨_, writes⟩) ?_
      rintro _ _ (rfl | same) cause stopped
      · cases stopped
      · exact refused cause same

/-! ### Runs -/

/-- The events of a request lead to where it stands, and count its submissions. -/
def Traces (engine : Engine) (id : RequestId) (submissions : Nat) : Prop :=
  ∃ trace stage, engine.cluster.trace = some trace ∧
    Stage.unknown.follow? (trace.eventsOf id) = some stage ∧ engine.cluster.Stands id stage ∧
    (trace.eventsOf id).count .requested = submissions

/-- In the beginning nobody is known. -/
theorem Starts.traces (starts : engine.Starts p) (blank : engine.cluster.trace = some [])
    (id : RequestId) : engine.Traces id 0 := by
  obtain ⟨caches, built, _, _, ran, same⟩ := starts
  obtain ⟨_, rfl⟩ := (ofReplicas_yields _ _ _).of_ok ran
  refine ⟨[], .unknown, blank, rfl, ?_, rfl⟩
  rcases same with rfl | rfl <;> exact List.not_mem_nil

/-- One call more. -/
theorem Traces.answered {n : Nat} {entries : Trace} (traces : engine.Traces id n)
    (writes : engine.Writes answer after entries) :
    after.Traces id (n + [answer].count (.named id)) := by
  obtain ⟨trace, stage, written, led, stands, submitted⟩ := traces
  obtain ⟨later, leads, stands⟩ := writes.stands id stage stands
  refine ⟨trace ++ entries, later, ?_, ?_, stands, ?_⟩
  · rw [writes.notes, written]
    rfl
  · rw [Trace.eventsOf_append, Stage.follow?_append, led, Option.bind_some, leads]
  · rw [Trace.eventsOf_append, List.count_append, submitted, writes.submitted]

/-- **A run of calls.** -/
theorem Traces.served {n : Nat} (rests : engine.Rests p) (traces : engine.Traces id n)
    {calls : List Call} {answers : List Answer}
    (served : engine.serve calls = some (answers, after)) :
    after.Traces id (n + answers.count (.named id)) := by
  induction calls generalizing engine answers n with
  | nil =>
      cases served
      exact traces
  | cons call rest ih =>
      obtain ⟨first, middle, later, answered, onwards, rfl⟩ := serve_cons.mp served
      obtain ⟨entries, writes⟩ := answer_writes rests answered
      have goesOn := ih (rests.answered answered).1 (traces.answered writes) onwards
      rwa [Nat.add_assoc, ← List.count_append] at goesOn

/-- **The trace of a request.** The events of a request that was submitted once form a word of the
language of lives, whatever calls were made and refused. The request runs exactly if it was admitted
once more than it was preempted and has not finished; it waits exactly if it was admitted as often
as it was preempted and was not given up; and it is never preempted after it was given up. The same
holds of the names under which the events are written down. -/
theorem events_of_submitted {start : Engine} {calls : List Call} {answers : List Answer}
    (starts : start.Starts p) (blank : start.cluster.trace = some [])
    (served : start.serve calls = some (answers, engine))
    (once : answers.count (.named id) = 1) :
    ∃ trace, engine.cluster.trace = some trace ∧
      trace.eventsOf id ∈ Event.lifecycle.matches' ∧
      (id ∈ engine.cluster.scheduler.running ↔
        (trace.eventsOf id).count .admitted = (trace.eventsOf id).count .preempted + 1 ∧
          .finished ∉ trace.eventsOf id) ∧
      (id ∈ engine.cluster.scheduler.waiting ↔
        (trace.eventsOf id).count .admitted = (trace.eventsOf id).count .preempted ∧
          .aborted ∉ trace.eventsOf id) ∧
      ((trace.eventsOf id).Pairwise fun earlier later =>
        earlier = .aborted → later ≠ .preempted) ∧
      (trace.eventsOf id).map Event.name ∈ Event.script.matches' ∧
      (id ∈ engine.cluster.scheduler.running ↔
        ((trace.eventsOf id).map Event.name).count "admit" =
            ((trace.eventsOf id).map Event.name).count "preempt" + 1 ∧
          "finish" ∉ (trace.eventsOf id).map Event.name) ∧
      (id ∈ engine.cluster.scheduler.waiting ↔
        ((trace.eventsOf id).map Event.name).count "admit" =
            ((trace.eventsOf id).map Event.name).count "preempt" ∧
          "abort" ∉ (trace.eventsOf id).map Event.name) ∧
      ((trace.eventsOf id).map Event.name).Pairwise fun earlier later =>
        earlier = "abort" → later ≠ "preempt" := by
  obtain ⟨trace, stage, written, led, stands, submitted⟩ :=
    (starts.traces blank id).served starts.rests served
  obtain ⟨_, rest⟩ := (starts.rests.served served).rest
  have tidy := rest.live.consistent.tidy
  rw [Nat.zero_add, once] at submitted
  have spells := Stage.spells_of_follow? led (Nat.le_of_eq submitted)
  have known : stage ≠ .unknown :=
    spells.known_iff.mpr (List.count_pos_iff.mp (submitted ▸ Nat.one_pos))
  have fed : stage ≠ .started := by
    rintro rfl
    exact stands
  exact ⟨trace, written, spells.lifecycle known fed,
    (stands.running_iff tidy).trans spells.running_iff.symm,
    (stands.waiting_iff tidy).trans (spells.waiting_iff known).symm, spells.settled,
    Event.map_name_mem_script (spells.lifecycle known fed),
    (stands.running_iff tidy).trans spells.running_iff_names.symm,
    (stands.waiting_iff tidy).trans (spells.waiting_iff_names known).symm, spells.settled_names⟩

/-- Two requests of which the second one is preempted, starts again when the first one has finished,
and is given up twice. -/
def troubledCalls : List Call :=
  [.submit (tinySubmission "a"), .submit (tinySubmission "b")] ++ List.replicate 14 .step ++
    [.abort "b", .abort "b"]

theorem events_of_submitted_troubled :
    ∃ answers engine trace, tinyEngine.traced.serve troubledCalls = some (answers, engine) ∧
      answers.count (.named "b") = 1 ∧ engine.cluster.trace = some trace ∧
      trace.eventsOf "b" = [.requested, .admitted, .prefilled, .preempted, .admitted, .prefilled,
        .aborted, .aborted] ∧
      trace.eventsOf "b" ∈ Event.lifecycle.matches' ∧
      ["add request", "admit", "prefill", "preempt", "admit", "prefill", "abort", "abort"] ∈
        Event.script.matches' ∧
      "b" ∈ engine.cluster.scheduler.running ∧ "b" ∉ engine.cluster.scheduler.waiting := by
  have state : (tinyEngine.traced.serve troubledCalls).any (fun ending =>
      decide (ending.1.count (.named "b") = 1) &&
      decide ((ending.2.cluster.trace.getD []).eventsOf "b" = [.requested, .admitted, .prefilled,
        .preempted, .admitted, .prefilled, .aborted, .aborted])) = true := by
    decide +kernel
  obtain ⟨⟨answers, engine⟩, served, state⟩ := Option.any_eq_true .. |>.mp state
  rw [Bool.and_eq_true, decide_eq_true_iff, decide_eq_true_iff] at state
  obtain ⟨once, events⟩ := state
  obtain ⟨trace, written, word, runs, waits, _, script, _⟩ :=
    events_of_submitted starts_tinyEngine.traced rfl served once
  rw [written, Option.getD_some] at events
  rw [events] at script
  refine ⟨answers, engine, trace, served, once, written, events, word, script, runs.mpr ?_,
    fun queued => ?_⟩
  · rw [events]
    decide
  · have both := waits.mp queued
    rw [events] at both
    exact absurd both (by decide)

end Engine

end ContinuousBatching
