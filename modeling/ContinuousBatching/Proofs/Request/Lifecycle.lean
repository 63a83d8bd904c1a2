/-
**The life of a request, event by event.**

The events of a request lead it from stage to stage (`Stage.next?`). A request that waits is
admitted and then fed; it may be preempted and wait again, any number of times. If it is given up
while it waits, that is the end of it; if it runs, it goes on until it finishes and is never
preempted again.

* `Stage.spells_of_follow?`: the events that lead to a stage, if the request was submitted once;
* `Stage.Spells.lifecycle`: such events form a word of the language `Event.lifecycle`;
* `Stage.Spells.settled`: no preemption comes after the request was given up;
* `Event.script`: the same language in the names under which the events are written down, which
  tell them apart (`Stage.Spells.count_name`).
-/

import ContinuousBatching.Trace
import Mathlib.Computability.RegularExpressions

namespace ContinuousBatching

namespace Event

/-- A request is admitted, fed, and preempted. -/
def round : List Event := [.admitted, .prefilled, .preempted]

/-- What happens to a request after its last round. It waits; or it was given up while it waited; or
it was admitted and fed, and then it may have been given up, even again and again, and may have
finished. -/
def ending : RegularExpression Event :=
  1 + .char .aborted +
    .char .admitted * .char .prefilled * (RegularExpression.char .aborted).star *
      (1 + .char .finished)

/-- What happens to a request that is submitted once, from the start until some moment between two
calls. -/
def lifecycle : RegularExpression Event :=
  .char .requested *
    (RegularExpression.char .admitted * .char .prefilled * .char .preempted).star * ending

/-- What is written down about such a request, in the names of the events. -/
def script : RegularExpression String :=
  .char "add request" *
    (RegularExpression.char "admit" * .char "prefill" * .char "preempt").star *
      (1 + .char "abort" +
        .char "admit" * .char "prefill" * (RegularExpression.char "abort").star *
          (1 + .char "finish"))

theorem script_eq : script = lifecycle.map name := rfl

theorem map_name_mem_script {events : List Event} (word : events ∈ lifecycle.matches') :
    events.map name ∈ script.matches' := by
  rw [script_eq, RegularExpression.matches'_map]
  exact ⟨events, word, rfl⟩

/-- Events with names of their own are told apart by them. -/
theorem name_inj {event other : Event} (own : ∀ text, event ≠ .named text)
    (own' : ∀ text, other ≠ .named text) : event.name = other.name ↔ event = other := by
  constructor
  · intro same
    cases event with
    | named text => exact absurd rfl (own text)
    | requested | admitted | prefilled | preempted | aborted | finished =>
        cases other with
        | named text => exact absurd rfl (own' text)
        | requested | admitted | prefilled | preempted | aborted | finished =>
            simp [name] at same ⊢
  · exact congrArg name

end Event

/-- How far a request has come. -/
inductive Stage where
  | unknown
  | waiting
  /-- It was admitted, but not fed yet. -/
  | started
  | running
  /-- It runs, but was given up. -/
  | marked
  /-- It was given up while it waited. -/
  | dropped
  | ended
  deriving DecidableEq, Repr

namespace Stage

/-- Where an event leads. A request that is gone may be submitted again. -/
def next? : Stage → Event → Option Stage
  | .unknown, .requested => some .waiting
  | .waiting, .admitted => some .started
  | .waiting, .aborted => some .dropped
  | .started, .prefilled => some .running
  | .running, .preempted => some .waiting
  | .running, .aborted => some .marked
  | .running, .finished => some .ended
  | .marked, .aborted => some .marked
  | .marked, .finished => some .ended
  | .dropped, .requested => some .waiting
  | .ended, .requested => some .waiting
  | _, _ => none

/-- Where events lead, in order. -/
def follow? (stage : Stage) (events : List Event) : Option Stage := events.foldlM next? stage

theorem follow?_append (stage : Stage) (front back : List Event) :
    stage.follow? (front ++ back) = (stage.follow? front).bind fun middle => middle.follow? back :=
  List.foldlM_append

/-! ### Words -/

/-- Rounds of being admitted, fed, and preempted. -/
def rounds (n : Nat) : List Event := (List.replicate n Event.round).flatten

theorem rounds_succ (n : Nat) : rounds (n + 1) = rounds n ++ Event.round := by
  rw [rounds, rounds, List.replicate_succ', List.flatten_append, List.flatten_singleton]

theorem count_rounds (n : Nat) (event : Event) :
    (rounds n).count event = n * Event.round.count event := by
  induction n with
  | zero => rw [Nat.zero_mul]; rfl
  | succ n ih => rw [rounds_succ, List.count_append, ih, Nat.succ_mul]

theorem not_mem_rounds {event : Event} (other : event ∉ Event.round) (n : Nat) :
    event ∉ rounds n := by
  rw [← List.count_eq_zero, count_rounds, List.count_eq_zero.mpr other, Nat.mul_zero]

/-- The words that lead to a stage and speak of one submission. -/
inductive Spells : Stage → List Event → Prop
  | unknown : Spells .unknown []
  | waiting (n : Nat) : Spells .waiting (.requested :: rounds n)
  | started (n : Nat) : Spells .started (.requested :: rounds n ++ [.admitted])
  | running (n : Nat) : Spells .running (.requested :: rounds n ++ [.admitted, .prefilled])
  | marked (n k : Nat) :
      Spells .marked
        (.requested :: rounds n ++ [.admitted, .prefilled] ++ List.replicate (k + 1) .aborted)
  | dropped (n : Nat) : Spells .dropped (.requested :: rounds n ++ [.aborted])
  | ended (n k : Nat) :
      Spells .ended (.requested :: rounds n ++ [.admitted, .prefilled] ++
        List.replicate k .aborted ++ [.finished])

namespace Spells

variable {stage later : Stage} {events : List Event} {event : Event}

/-- Whoever is known was submitted. -/
theorem known_iff (spells : stage.Spells events) : stage ≠ .unknown ↔ .requested ∈ events := by
  cases spells <;> simp

/-- **One event more.** It is no second submission. -/
theorem step (spells : stage.Spells events) (leads : stage.next? event = some later)
    (once : (events ++ [event]).count .requested ≤ 1) : later.Spells (events ++ [event]) := by
  have again : event = .requested → stage = .unknown := by
    rintro rfl
    by_contra known
    have before := List.count_pos_iff.mpr (spells.known_iff.mp known)
    rw [List.count_append, List.count_singleton_self] at once
    omega
  cases spells with
  | unknown =>
      cases event <;> cases leads
      exact .waiting 0
  | waiting n =>
      cases event <;> cases leads
      · exact .started n
      · exact .dropped n
  | started n =>
      cases event <;> cases leads
      rw [List.append_assoc]
      exact .running n
  | running n =>
      cases event <;> cases leads
      · rw [List.append_assoc, List.cons_append]
        exact rounds_succ n ▸ .waiting (n + 1)
      · exact .marked n 0
      · have ended := Spells.ended n 0
        rwa [List.replicate_zero, List.append_nil] at ended
  | marked n k =>
      cases event <;> cases leads
      · rw [List.append_assoc, ← List.replicate_succ']
        exact .marked n (k + 1)
      · exact .ended n (k + 1)
  | dropped n =>
      cases event <;> cases leads
      cases again rfl
  | ended n k =>
      cases event <;> cases leads
      cases again rfl

end Spells

/-- **The events that lead to a stage.** -/
theorem spells_of_follow? {stage : Stage} {events : List Event}
    (led : unknown.follow? events = some stage) (once : events.count .requested ≤ 1) :
    stage.Spells events := by
  induction events using List.reverseRecOn generalizing stage with
  | nil =>
      cases led
      exact .unknown
  | append_singleton front event ih =>
      rw [follow?_append, Option.bind_eq_some_iff] at led
      obtain ⟨middle, earlier, last⟩ := led
      have single : middle.follow? [event] = middle.next? event := by
        rw [follow?, List.foldlM_cons]
        exact Option.bind_fun_some _
      rw [single] at last
      refine (ih earlier ?_).step last once
      rw [List.count_append] at once
      omega

namespace Spells

variable {stage : Stage} {events : List Event}

theorem rounds_mem (n : Nat) :
    rounds n ∈ (RegularExpression.char Event.admitted * .char .prefilled *
      .char .preempted).star.matches' := by
  rw [RegularExpression.matches'_star, Language.mem_kstar]
  refine ⟨List.replicate n Event.round, rfl, fun word member => ?_⟩
  rw [List.eq_of_mem_replicate member]
  exact ⟨[.admitted, .prefilled], ⟨[.admitted], rfl, [.prefilled], rfl, rfl⟩, [.preempted], rfl,
    rfl⟩

/-- A word from its parts. -/
theorem mem_lifecycle (n : Nat) {word : List Event} (ends : word ∈ Event.ending.matches') :
    .requested :: rounds n ++ word ∈ Event.lifecycle.matches' :=
  ⟨.requested :: rounds n, ⟨[.requested], rfl, rounds n, rounds_mem n, rfl⟩, word, ends, rfl⟩

/-- A request that was fed may have been given up, and may have finished. -/
theorem mem_ending (k : Nat) {word : List Event}
    (last : word ∈ (1 + RegularExpression.char Event.finished).matches') :
    [.admitted, .prefilled] ++ List.replicate k .aborted ++ word ∈ Event.ending.matches' := by
  have given : List.replicate k Event.aborted ∈
      (RegularExpression.char Event.aborted).star.matches' := by
    rw [RegularExpression.matches'_star, Language.mem_kstar]
    refine ⟨List.replicate k [.aborted], ?_, fun word member => List.eq_of_mem_replicate member⟩
    rw [List.flatten_replicate_singleton]
  exact Or.inr ⟨_, ⟨[.admitted, .prefilled], ⟨[.admitted], rfl, [.prefilled], rfl, rfl⟩, _, given,
    rfl⟩, word, last, rfl⟩

/-- **The events of a request form a word of the language**, unless it is about to be fed. -/
theorem lifecycle (spells : stage.Spells events) (known : stage ≠ .unknown)
    (fed : stage ≠ .started) : events ∈ Event.lifecycle.matches' := by
  have goesOn : [] ∈ (1 + RegularExpression.char Event.finished).matches' := Or.inl rfl
  have ends : [.finished] ∈ (1 + RegularExpression.char Event.finished).matches' := Or.inr rfl
  cases spells with
  | unknown => exact absurd rfl known
  | waiting n =>
      have waits : [] ∈ Event.ending.matches' := Or.inl (Or.inl rfl)
      exact List.append_nil (Event.requested :: rounds n) ▸ mem_lifecycle n waits
  | started n => exact absurd rfl fed
  | running n => exact mem_lifecycle n (mem_ending 0 goesOn)
  | marked n k =>
      have word := mem_lifecycle n (mem_ending (k + 1) goesOn)
      rwa [List.append_nil, ← List.append_assoc] at word
  | dropped n => exact mem_lifecycle n (Or.inl (Or.inr rfl))
  | ended n k =>
      have word := mem_lifecycle n (mem_ending k ends)
      rwa [← List.append_assoc, ← List.append_assoc] at word

/-- A word that speaks of being given up only after the last preemption. -/
theorem settled_append {front back : List Event} (before : .aborted ∉ front)
    (after : .preempted ∉ back) :
    (front ++ back).Pairwise fun earlier later => earlier = .aborted → later ≠ .preempted := by
  refine List.pairwise_append.mpr ⟨?_, ?_, fun earlier member _ _ given => ?_⟩
  · refine List.pairwise_of_forall_mem_list fun earlier member _ _ given => ?_
    exact absurd (given ▸ member) before
  · refine List.pairwise_of_forall_mem_list fun _ _ later member _ preempted => ?_
    exact absurd (preempted ▸ member) after
  · exact absurd (given ▸ member) before

/-- **No preemption comes after the request was given up.** -/
theorem settled (spells : stage.Spells events) :
    events.Pairwise fun earlier later => earlier = .aborted → later ≠ .preempted := by
  have spared : ∀ n, Event.aborted ∉ Event.requested :: rounds n := fun n member => by
    have other : Event.aborted ∉ Event.round := by decide
    rcases List.mem_cons.mp member with same | member
    · cases same
    · exact not_mem_rounds other n member
  cases spells with
  | unknown => exact .nil
  | waiting n =>
      have none : Event.preempted ∉ [] := List.not_mem_nil
      exact List.append_nil (Event.requested :: rounds n) ▸ settled_append (spared n) none
  | started n => exact settled_append (spared n) (by simp)
  | running n => exact settled_append (spared n) (by simp)
  | marked n k =>
      rw [List.append_assoc]
      exact settled_append (spared n) (by simp)
  | dropped n => exact settled_append (spared n) (by simp)
  | ended n k =>
      rw [List.append_assoc, List.append_assoc]
      exact settled_append (spared n) (by simp)

/-- The request runs exactly if it was admitted once more than it was preempted and has not
finished. -/
theorem running_iff (spells : stage.Spells events) :
    (events.count .admitted = events.count .preempted + 1 ∧ .finished ∉ events) ↔
      stage = .started ∨ stage = .running ∨ stage = .marked := by
  cases spells <;> simp [count_rounds, not_mem_rounds, Event.round, List.count_replicate]

/-- The request waits exactly if it was admitted as often as it was preempted and was not given up.
-/
theorem waiting_iff (spells : stage.Spells events) (known : stage ≠ .unknown) :
    (events.count .admitted = events.count .preempted ∧ .aborted ∉ events) ↔
      stage = .waiting := by
  cases spells <;>
    simp [count_rounds, not_mem_rounds, Event.round, List.count_replicate] at known ⊢

/-- No event of a life has to be named. -/
theorem own_names (spells : stage.Spells events) (text : String) : .named text ∉ events := by
  have other : Event.named text ∉ Event.round := by simp [Event.round]
  cases spells <;> simp [not_mem_rounds other]

/-- The events of a life are told apart by their names. -/
theorem name_eq_iff (spells : stage.Spells events) {event other : Event} (member : other ∈ events)
    (own : ∀ text, event ≠ .named text) : other.name = event.name ↔ other = event :=
  Event.name_inj (fun text same => spells.own_names text (same ▸ member)) own

/-- An event is written down as often as it happened. -/
theorem count_name (spells : stage.Spells events) {event : Event}
    (own : ∀ text, event ≠ .named text) :
    (events.map Event.name).count event.name = events.count event := by
  rw [List.count, List.countP_map, List.count]
  refine List.countP_congr fun other member => ?_
  rw [Function.comp_apply, beq_iff_eq, beq_iff_eq, spells.name_eq_iff member own]

theorem name_mem_iff (spells : stage.Spells events) {event : Event}
    (own : ∀ text, event ≠ .named text) : event.name ∈ events.map Event.name ↔ event ∈ events := by
  rw [← List.count_pos_iff, spells.count_name own, List.count_pos_iff]

/-- No preemption is written down after the request was given up. -/
theorem settled_names (spells : stage.Spells events) :
    (events.map Event.name).Pairwise fun earlier later =>
      earlier = Event.aborted.name → later ≠ Event.preempted.name := by
  rw [List.pairwise_map]
  refine spells.settled.imp_of_mem fun before after settled given => ?_
  rw [spells.name_eq_iff before fun _ => Event.noConfusion] at given
  rw [Ne, spells.name_eq_iff after fun _ => Event.noConfusion]
  exact settled given

/-- Whether the request runs, by the names that were written down. -/
theorem running_iff_names (spells : stage.Spells events) :
    ((events.map Event.name).count Event.admitted.name =
        (events.map Event.name).count Event.preempted.name + 1 ∧
      Event.finished.name ∉ events.map Event.name) ↔
      stage = .started ∨ stage = .running ∨ stage = .marked := by
  rw [spells.count_name fun _ => Event.noConfusion, spells.count_name fun _ => Event.noConfusion,
    spells.name_mem_iff fun _ => Event.noConfusion, spells.running_iff]

/-- Whether the request waits, by the names that were written down. -/
theorem waiting_iff_names (spells : stage.Spells events) (known : stage ≠ .unknown) :
    ((events.map Event.name).count Event.admitted.name =
        (events.map Event.name).count Event.preempted.name ∧
      Event.aborted.name ∉ events.map Event.name) ↔ stage = .waiting := by
  rw [spells.count_name fun _ => Event.noConfusion, spells.count_name fun _ => Event.noConfusion,
    spells.name_mem_iff fun _ => Event.noConfusion, spells.waiting_iff known]

end Spells

end Stage

end ContinuousBatching
