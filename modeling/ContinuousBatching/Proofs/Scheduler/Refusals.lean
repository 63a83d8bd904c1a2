/-
**What a refusal leaves behind.**

An operation on one request that is refused has changed nothing. An operation on several ends or
admits them one after the other, and if it is refused at one of them, the ones before are done with
and the others are as they were.

* `Cluster.AllOrNothing`: a refusal leaves everything as it was;
* `Cluster.reclaim_stops`: the end of several requests, up to one that does not run;
* `Cluster.known_after`: whoever is known was known before or has arrived since, so that a request
  that has ended stays unknown until it is submitted again;
* `Cluster.refused_at_one`: all of this in any state that operations lead to.
-/

import ContinuousBatching.Proofs.Scheduler.Preparation
import ContinuousBatching.Proofs.Scheduler.Retention
import ContinuousBatching.Proofs.Scheduler.Rounds
import ContinuousBatching.Proofs.Scheduler.Seats
import Mathlib.Data.List.Induction

namespace ContinuousBatching

/-- The members of a list are different ones that pass a test, or there is a first one that does
not pass it or repeats one before. -/
theorem nodup_or_first {α : Type} (test : α → Prop) (list : List α) :
    (list.Nodup ∧ ∀ a ∈ list, test a) ∨ ∃ before a after, list = before ++ a :: after ∧
      before.Nodup ∧ (∀ b ∈ before, test b) ∧ (test a → a ∈ before) := by
  induction list using List.reverseRecOn with
  | nil => exact Or.inl ⟨List.nodup_nil, fun _ none => absurd none List.not_mem_nil⟩
  | append_singleton list a ih =>
      rcases ih with ⟨nodup, passes⟩ | ⟨before, b, after, rfl, nodup, passes, first⟩
      · by_cases here : test a ∧ a ∉ list
        · refine Or.inl ⟨List.nodup_append_comm.mp (List.nodup_cons.mpr ⟨here.2, nodup⟩), ?_⟩
          intro b member
          rcases List.mem_append.mp member with before | last
          · exact passes b before
          · exact List.mem_singleton.mp last ▸ here.1
        · refine Or.inr ⟨list, a, [], rfl, nodup, passes, fun holds => ?_⟩
          by_contra absent
          exact here ⟨holds, absent⟩
      · exact Or.inr ⟨before, b, after ++ [a], by rw [List.append_assoc]; rfl, nodup, passes,
          first⟩

namespace Cluster

variable {α : Type} {c d : Cluster} {caches : List PagedCache} {id : RequestId}

/-- The cause for which an action is refused, and the state that it leaves behind. -/
def refusal? (action : Action Cluster α) (c : Cluster) : Option (Failure × Cluster) :=
  match action c with
  | .error (.refused cause) d => some (cause, d)
  | _ => none

theorem refusal?_eq_some {action : Action Cluster α} {cause : Failure} :
    refusal? action c = some (cause, d) ↔ action c = .error (.refused cause) d := by
  unfold refusal?
  split
  · rename_i run
    rw [run]
    simp
  · rename_i other
    exact ⟨fun none => (by cases none), fun run => absurd run (other _ _)⟩

/-- If the action is refused, everything is as it was before. -/
def AllOrNothing (action : Action Cluster α) (c : Cluster) : Prop :=
  ∀ cause d, action c = .error (.refused cause) d → d = c

/-! ### One request -/

theorem add_allOrNothing (request : Request) (c : Cluster) :
    AllOrNothing (onScheduler (Scheduler.add request)) c := by
  intro cause d refused
  have added : Meets (onScheduler (Scheduler.add request)) c (fun _ _ => True)
      (fun _ d => d = c) := by
    rw [meets_onScheduler]
    exact (Scheduler.add_meets request c.scheduler).mono (fun _ _ _ => trivial)
      fun _ _ kept => by rw [kept.1]
  exact added.of_error refused

theorem commit_allOrNothing (consistent : c.scheduler.Consistent) (id : RequestId)
    (replica : Nat) (sample : Sample) :
    AllOrNothing (onScheduler (Scheduler.commit id replica sample)) c := by
  intro cause d refused
  have committed : Meets (onScheduler (Scheduler.commit id replica sample)) c (fun _ _ => True)
      (fun stop d => stop = .fault .overflow ∨ d = c) := by
    rw [meets_onScheduler]
    refine (Scheduler.commit_meets consistent id replica sample).mono (fun _ _ _ => trivial) ?_
    rintro stop _ (⟨rfl, _⟩ | ⟨large, _⟩)
    · exact Or.inr rfl
    · exact Or.inl large
  exact (committed.of_error refused).resolve_left fun large => by cases large

theorem abort_allOrNothing (consistent : c.scheduler.Consistent) (id : RequestId) :
    AllOrNothing (onScheduler (Scheduler.abort id)) c := by
  intro cause d refused
  have aborted : Meets (onScheduler (Scheduler.abort id)) c (fun _ _ => True)
      (fun _ d => d = c) := by
    rw [meets_onScheduler]
    exact (Scheduler.abort_meets consistent id).mono (fun _ _ _ => trivial)
      fun _ _ kept => by rw [kept.1]
  exact aborted.of_error refused

theorem preemptLast_allOrNothing (owned : c.Owned caches) :
    AllOrNothing Cluster.preemptLast c := by
  intro cause d refused
  have preempted : Meets Cluster.preemptLast c (fun _ _ => True) (fun _ d => d = c) := by
    refine preemptLast_rule (fun _ => rfl) fun id victim => ?_
    have runs := Scheduler.victim?_mem_running victim
    obtain ⟨ticket, found⟩ := owned.consistent.found_of_running runs
    exact (preempt_meets owned runs found).mono (fun _ _ _ => trivial) fun _ _ kept => kept.1
  exact preempted.of_error refused

/-! ### The end of several requests -/

/-- Whoever does not run cannot be ended. -/
theorem reclaim_of_idle (idle : id ∉ c.scheduler.running) (rest : List RequestId) :
    reclaim (id :: rest) c = .error (.refused (.notRunning id)) c := by
  refine Meets.stop_eq ?_
  show Meets (reclaimOne id >>= fun _ => reclaim rest) c _ _
  rw [meets_bind, reclaimOne, meets_bind, meets_get, if_neg idle]
  exact ⟨rfl, rfl⟩

/-- Some requests first, and then the others. -/
theorem reclaim_append (before rest : List RequestId) :
    reclaim (before ++ rest) = reclaim before >>= fun _ => reclaim rest :=
  List.forM_append

/-- **Up to one that does not run.** Several requests end one after the other. The call is refused
at the first one that does not run, or not any more, and has ended the ones before it. -/
theorem reclaim_stops (inOrder : c.InOrder) (ids : List RequestId) :
    Meets (reclaim ids) c (fun _ d => c.Ended ids d)
      (fun stop d => ∀ cause, stop = .refused cause → ∃ before id after,
        ids = before ++ id :: after ∧ cause = .notRunning id ∧ id ∉ d.scheduler.running ∧
        reclaim before c = .ok () d ∧ c.Ended before d) := by
  rcases nodup_or_first (fun id => id ∈ c.scheduler.running) ids with
    ⟨nodup, runs⟩ | ⟨before, id, after, rfl, nodup, runs, first⟩
  · refine (reclaim_ends ids c inOrder nodup runs).mono (fun _ _ ended => ended.1) ?_
    rintro _ _ ⟨rfl, _⟩ cause same
    cases same
  · rw [reclaim_append, meets_bind]
    refine (reclaim_ends before c inOrder nodup runs).with_run.mono ?_ ?_
    · rintro _ d ⟨⟨ended, _⟩, run⟩
      have idle : id ∉ d.scheduler.running := by
        rw [ended.running, List.mem_filter]
        rintro ⟨ran, apart⟩
        exact of_decide_eq_true apart (first ran)
      unfold Meets
      rw [reclaim_of_idle idle after]
      rintro cause same
      cases same
      exact ⟨before, id, after, rfl, rfl, idle, run, ended⟩
    · rintro _ _ ⟨rfl, _⟩ cause same
      cases same

/-! ### Whoever is gone -/

/-- **Whoever is known** was known at the start or has arrived since. -/
theorem known_after (tidy : c.scheduler.Tidy) {history : List Operation}
    (ended : c.after history = some d) (known : id ∈ d.scheduler.tickets.keys) :
    id ∈ c.scheduler.tickets.keys ∨ id ∈ c.arrivals history := by
  induction history generalizing c with
  | nil =>
      cases ended
      exact Or.inl known
  | cons operation rest ih =>
      obtain ⟨e, first, later⟩ := Option.bind_eq_some_iff.mp ended
      rw [arrivals, first, List.mem_append]
      have follows := operation.follows_of_after tidy first
      rcases ih follows.tidy later with before | arrived
      · rcases follows.known id before with before | arrived
        · exact Or.inl before
        · rw [arrived]
          exact Or.inr (Or.inl List.mem_cons_self)
      · exact Or.inr (Or.inr arrived)

/-- A request that has ended cannot be ended once more, until it is submitted again. -/
theorem Ended.reclaim_again {ids : List RequestId} {e : Cluster} {later : List Operation}
    (ended : c.Ended ids d) (member : id ∈ ids) (went : d.after later = some e)
    (away : id ∉ d.arrivals later) (rest : List RequestId) :
    reclaim (id :: rest) e = .error (.refused (.notRunning id)) e := by
  obtain ⟨_, owned⟩ := ended.inOrder
  obtain ⟨_, owned'⟩ := inOrder_after ended.inOrder went
  refine reclaim_of_idle (fun runs => ?_) rest
  have known := (owned'.consistent.known id).mp (List.mem_append_left _ runs)
  rcases known_after owned.consistent.tidy went known with before | arrived
  · obtain ⟨ticket, there⟩ := Registry.mem_keys_iff.mp before
    rw [ended.tickets, if_pos member] at there
    cases there
  · exact away arrived

/-! ### In any state -/

/-- **Refused at one request.** Start without requests and with fresh caches, and let any operations
be carried out or refused. If a submission, a token, a request to give up or a preemption is refused
next, nothing has changed. If the end of several requests is refused at one of them, this one does
not run, and exactly those before it have ended, as they would alone. Whoever has ended cannot be
ended again until it is submitted again. If an admission is refused, exactly those before the one at
the front are admitted, as they would be into just as many slots. -/
theorem refused_at_one {capacity lanes : Nat} {history : List Operation}
    (fresh : ∀ cache ∈ caches, cache.IsFresh)
    (reached : (ofReplicas (caches.map .paged) lanes (.ofCapacity capacity)).after history =
      some c) :
    (∀ request, AllOrNothing (onScheduler (Scheduler.add request)) c) ∧
    (∀ id replica sample, AllOrNothing (onScheduler (Scheduler.commit id replica sample)) c) ∧
    (∀ id, AllOrNothing (onScheduler (Scheduler.abort id)) c) ∧
    AllOrNothing Cluster.preemptLast c ∧
    (∀ ids cause d, reclaim ids c = .error (.refused cause) d → ∃ before id after,
      ids = before ++ id :: after ∧ cause = .notRunning id ∧ id ∉ d.scheduler.running ∧
      reclaim before c = .ok () d ∧ c.Ended before d) ∧
    (∀ ids d, reclaim ids c = .ok () d → ∀ id ∈ ids, ∀ later e, d.after later = some e →
      id ∉ d.arrivals later → ∀ rest,
      reclaim (id :: rest) e = .error (.refused (.notRunning id)) e) ∧
    (∀ (π : Type) slots (accepts : π → Ticket → List Replica → Bool × π) notes cause d,
      startWaiting slots (fun notes ticket replicas => .ok (accepts notes ticket replicas)) notes
        c = .error (.refused cause) d → ∃ ids id rest, c.Seated ids d ∧
      c.scheduler.waiting = ids ++ id :: rest ∧ d.scheduler.waiting = id :: rest ∧
      d.scheduler.tickets.get? id = c.scheduler.tickets.get? id ∧
      cause = .sequenceIdsExhausted capacity ∧
      startWaiting (c.scheduler.running.length + ids.length)
        (fun notes ticket replicas => .ok (accepts notes ticket replicas)) notes c =
          .ok ids d) := by
  have evolves := evolves_after ⟨caches, owned_ofReplicas fresh lanes capacity⟩ reached
  obtain ⟨held, owned⟩ := evolves.inOrder
  have consistent := owned.consistent
  refine ⟨fun request => add_allOrNothing request c, commit_allOrNothing consistent,
    abort_allOrNothing consistent, preemptLast_allOrNothing owned, fun ids cause d refused => ?_,
    fun ids d run id member later e went away rest => ?_,
    fun π slots accepts notes cause d refused => ?_⟩
  · exact (reclaim_stops ⟨held, owned⟩ ids).of_error refused cause rfl
  · have ended := (meets_iff_of_ok run).mp (reclaim_stops ⟨held, owned⟩ ids)
    exact ended.reclaim_again member went away rest
  · obtain ⟨ids, id, rest, seated, front, unstartable, run⟩ :=
      (startWhile_seats c.scheduler.waiting notes c ⟨held, owned⟩ rfl).of_error refused cause rfl
    obtain ⟨exhausted, _⟩ := unstartable.resolve_right fun ⟨_, _, failed⟩ => by cases failed
    have queue := seated.waiting
    rw [front] at queue
    have apart : id ∉ ids := by
      have nodup := consistent.nodup_waiting
      rw [queue] at nodup
      exact fun member => (List.nodup_append.mp nodup).2.2 id member id List.mem_cons_self rfl
    have kept : c.Evolves d :=
      (startWhile_keeps c.scheduler.waiting notes c ⟨held, owned⟩ rfl).of_error refused
    obtain ⟨retentive, before⟩ := evolves.retentive List.Pairwise.nil
    rw [(kept.retentive retentive).2, before] at exhausted
    exact ⟨ids, id, rest, seated, queue, front, seated.others id apart, exhausted, run⟩

/-- A history after which one of four requests runs, and one sequence id is left. -/
def crampedHistory : List Operation :=
  let request (id : RequestId) : Request := ⟨id, [.tokens [1, 2, 3]], .usual⟩
  [.add (request "a"), .add (request "b"), .add (request "c"), .add (request "d"),
    .start 1 (fun _ _ _ => (true, ())) ()]

/-- An admission into four slots admits one and stops at the next; the end of the running request
and itself once more ends it; and it cannot be preempted, as it was not fed. -/
theorem refused_at_one_cramped : ∃ c d e f,
    (ofReplicas ([PagedCache.ofSize "only" 8 2 countTokens].map .paged) 1 (.ofCapacity 2)).after
      crampedHistory = some c ∧
    startWaiting 4 (fun _ _ _ => .ok (true, ())) () c =
      .error (.refused (.sequenceIdsExhausted 2)) d ∧
    d.scheduler.waiting = ["c", "d"] ∧ c.Seated ["b"] d ∧
    reclaim ["a", "a"] c = .error (.refused (.notRunning "a")) e ∧ c.Ended ["a"] e ∧
    Cluster.preemptLast c =
      .error (.refused (.inconsistent (.prefillUnfinished "a" 0 1 0))) f ∧ f = c := by
  have ran : (do
      let c ← (ofReplicas ([PagedCache.ofSize "only" 8 2 countTokens].map .paged) 1
        (.ofCapacity 2)).after crampedHistory
      let admitting ← refusal? (startWaiting 4 (fun _ _ _ => .ok (true, ())) ()) c
      let ending ← refusal? (reclaim ["a", "a"]) c
      let preempting ← refusal? Cluster.preemptLast c
      return decide (admitting.1 = .sequenceIdsExhausted 2) &&
        decide (admitting.2.scheduler.waiting = ["c", "d"]) &&
        decide (c.scheduler.waiting = ["b", "c", "d"]) &&
        decide (ending.1 = .notRunning "a") && decide (ending.2.scheduler.running = []) &&
        decide (c.scheduler.running = ["a"]) &&
        decide (preempting.1 = .inconsistent (.prefillUnfinished "a" 0 1 0))) = some true := by
    decide +kernel
  simp only [Option.bind_eq_bind, Option.bind_eq_some_iff, Option.pure_def, Option.some.injEq,
    Bool.and_eq_true, decide_eq_true_eq] at ran
  obtain ⟨c, reached, ⟨_, d⟩, admitting, ⟨_, e⟩, ending, ⟨_, f⟩, preempting,
    ⟨⟨⟨⟨⟨rfl, left⟩, queue⟩, rfl⟩, none⟩, running⟩, rfl⟩ := ran
  have fresh : ∀ cache ∈ [PagedCache.ofSize "only" 8 2 countTokens], cache.IsFresh := by
    simp [PagedCache.IsFresh, PagedCache.ofSize, BlockPool.ofSize]
  obtain ⟨_, _, _, preempts, ends, _, admits⟩ := refused_at_one fresh reached
  replace admitting := refusal?_eq_some.mp admitting
  replace ending := refusal?_eq_some.mp ending
  replace preempting := refusal?_eq_some.mp preempting
  obtain ⟨ids, _, _, seated, front, rest, _⟩ :=
    admits Unit 4 (fun _ _ _ => (true, ())) () _ _ admitting
  obtain ⟨before, _, after, listed, _, _, _, ended⟩ := ends _ _ _ ending
  dsimp only at *
  have admitted : ids = ["b"] := by
    rw [queue, ← rest, left] at front
    exact (List.append_cancel_right front : ["b"] = ids).symm
  have finished : before = ["a"] := by
    rcases before with _ | ⟨id, _ | ⟨other, more⟩⟩
    · have still := ended.running
      rw [running, none] at still
      cases still
    · rw [← (List.cons.inj listed).1]
    · simp at listed
  exact ⟨c, d, e, f, reached, admitting, left, admitted ▸ seated, ending, finished ▸ ended,
    preempting, preempts _ _ preempting⟩

end Cluster

end ContinuousBatching
