/-
**What the scheduler's operations do.**

Each operation on a scheduler either arrives at a result that is written out, or stops without
having changed anything.

* `Scheduler.add_meets`, `Scheduler.commit_meets`, `Scheduler.abort_meets`: the results of taking a
  request, of adding a token (`Scheduler.committed`) and of giving a request up;
* `Scheduler.Consistent.committed`, `Scheduler.Consistent.modifyLane`: a lane that changes apart
  from its attachment leaves the bookkeeping consistent;
* `Scheduler.victim?_spec`: a preemption chooses the last running request that was not given up;
* `Cluster.preemptLast_rule`: what has to be known of a preemption by such a choice.
-/

import ContinuousBatching.Proofs.Scheduler.Moves

namespace ContinuousBatching

namespace Scheduler

variable {s : Scheduler} {id : RequestId} {ticket : Ticket}

/-- The scheduler after a token was added to a lane of a request. -/
def committed (s : Scheduler) (id : RequestId) (ticket : Ticket) (replica : Nat)
    (sample : Sample) : Scheduler :=
  { s with
    tickets := s.tickets.insert id (ticket.modifyLane replica fun lane => lane.commit sample)
    totals :=
      { s.totals with
        occupied := s.totals.occupied +
          ((ticket.modifyLane replica fun lane => lane.commit sample).occupied -
            ticket.occupied) } }

/-- **Taking a request.** -/
theorem add_meets (request : Request) (s : Scheduler) :
    Meets (add request) s
      (fun _ t => request.id ∉ s.tickets.keys ∧ request.inputLength ≠ 0 ∧
        t = s.added request.id (.ofRequest request s.laneCount))
      (fun stop t => t = s ∧
        ((stop = .refused (.duplicateRequest request.id) ∧ request.id ∈ s.tickets.keys) ∨
          (stop = .refused (.untranslatable (.emptyPrompt request.id)) ∧
            request.inputLength = 0) ∨
          (stop = .fault .outOfMemory ∧ Memory.limit ≤ max s.laneCount 1 * Lane.bytes))) := by
  unfold add
  rw [meets_bind, meets_get]
  by_cases known : request.id ∈ s.tickets.keys
  · rw [if_pos (Registry.contains_iff.mpr known)]
    exact ⟨rfl, Or.inl ⟨rfl, known⟩⟩
  · rw [if_neg (fun contains => known (Registry.contains_iff.mp contains))]
    by_cases empty : request.inputLength = 0
    · rw [if_pos empty]
      exact ⟨rfl, Or.inr (Or.inl ⟨rfl, empty⟩)⟩
    · rw [if_neg empty, meets_bind, meets_liftM, Ticket.issue, yields_bind, Memory.holdList]
      by_cases fits : max s.laneCount 1 * Lane.bytes < Memory.limit
      · rw [if_pos fits]
        exact ⟨known, empty, rfl⟩
      · rw [if_neg fits]
        exact ⟨rfl, Or.inr (Or.inr ⟨rfl, Nat.le_of_not_lt fits⟩)⟩

/-- A token makes a request occupy no less. -/
theorem occupied_le_commit (ticket : Ticket) (replica : Nat) (sample : Sample) :
    ticket.occupied ≤ (ticket.modifyLane replica fun lane => lane.commit sample).occupied := by
  cases replica with
  | zero =>
      show ticket.request.inputLength + (ticket.primary.committed.length - 1) ≤
        ticket.request.inputLength + ((ticket.primary.committed ++ [sample]).length - 1)
      rw [List.length_append]
      omega
  | succ => exact Nat.le_refl _

/-- **Adding a token.** -/
theorem commit_meets (consistent : s.Consistent) (id : RequestId) (replica : Nat)
    (sample : Sample) :
    Meets (commit id replica sample) s
      (fun _ t => ∃ ticket, id ∈ s.running ∧ s.tickets.get? id = some ticket ∧
        s.totals.occupied + ((ticket.modifyLane replica fun lane => lane.commit sample).occupied -
          ticket.occupied) < Count.limit ∧ t = s.committed id ticket replica sample)
      (fun stop t =>
        (t = s ∧ ((stop = .refused (.notRunning id) ∧ id ∉ s.running) ∨
          (stop = .refused (.inconsistent (.laneMissing id replica)) ∧
            ∃ ticket, s.tickets.get? id = some ticket ∧ ticket.lane? replica = none))) ∨
        (stop = .fault .overflow ∧ ∃ ticket, s.tickets.get? id = some ticket ∧
          Count.limit ≤ s.totals.occupied +
            ((ticket.modifyLane replica fun lane => lane.commit sample).occupied -
              ticket.occupied))) := by
  unfold commit
  rw [meets_bind, meets_get]
  by_cases runs : id ∈ s.running
  · obtain ⟨ticket, found⟩ := consistent.found_of_running runs
    have below := consistent.occupied_le runs found
    have small : ticket.occupied < Count.limit := Nat.lt_of_le_of_lt below consistent.countable
    have counted : ticket.occupiedLength = .ok ticket.occupied :=
      Count.add_eq_ok_iff.mpr ⟨small, rfl⟩
    rw [if_pos runs, meets_bind]
    refine find_meets found ?_
    rw [meets_bind, meets_liftM, counted, yields_ok]
    by_cases missing : ticket.lane? replica = none
    · rw [if_pos (by rw [missing]; rfl), meets_bind, meets_refuse]
      exact Or.inl ⟨rfl, Or.inr ⟨rfl, ticket, found, missing⟩⟩
    · have present : ¬ (ticket.lane? replica).isNone = true := by
        rwa [Option.isNone_iff_eq_none]
      rw [if_neg present]
      dsimp only
      rw [meets_bind, meets_put]
      by_cases primary : replica = 0
      · rw [if_pos primary, meets_bind, meets_liftM]
        have grows := occupied_le_commit ticket replica sample
        refine (Cluster.occupiedLength_yields _).mono ?_ ?_
        · rintro _ rfl
          rw [meets_onTotals]
          refine (Totals.occupy_meets _ _).mono ?_ ?_
          · rintro _ _ ⟨fits, rfl⟩
            exact ⟨ticket, runs, found, fits, rfl⟩
          · rintro _ _ ⟨rfl, large, rfl⟩
            exact Or.inr ⟨rfl, ticket, found, large⟩
        · rintro _ ⟨rfl, large⟩
          refine Or.inr ⟨rfl, ticket, found, ?_⟩
          omega
      · rw [if_neg primary]
        have same : (ticket.modifyLane replica fun lane => lane.commit sample).occupied =
            ticket.occupied := Ticket.occupied_modifyLane fun zero => absurd zero primary
        refine ⟨ticket, runs, found, ?_, ?_⟩
        · rw [same, Nat.sub_self, Nat.add_zero]
          exact consistent.countable
        · rw [committed, same, Nat.sub_self, Nat.add_zero]
  · rw [if_neg runs]
    exact Or.inl ⟨rfl, Or.inl ⟨rfl, runs⟩⟩

theorem Consistent.committed (consistent : s.Consistent) {replica : Nat} {sample : Sample}
    (runs : id ∈ s.running) (found : s.tickets.get? id = some ticket)
    (countable : s.totals.occupied +
      ((ticket.modifyLane replica fun lane => lane.commit sample).occupied - ticket.occupied) <
        Count.limit) :
    (s.committed id ticket replica sample).Consistent := by
  have grows := occupied_le_commit ticket replica sample
  have kept : ∀ lane : Lane, (lane.commit sample).sequence = lane.sequence := fun _ => rfl
  refine consistent.put found ((consistent.alike id ticket found).modifyLane kept)
    (Ticket.primary_modifyLane_sequence kept) (fun _ => ?_) (fun idle => absurd runs idle) countable
  show s.totals.occupied + _ + ticket.occupied = _
  omega

/-- A lane may change apart from its attachment and its tokens. -/
theorem Consistent.modifyLane (consistent : s.Consistent) {replica : Nat} {change : Lane → Lane}
    (found : s.tickets.get? id = some ticket)
    (sequence : ∀ lane, (change lane).sequence = lane.sequence)
    (tokens : ∀ lane, (change lane).committed = lane.committed) :
    Consistent { s with tickets := s.tickets.insert id (ticket.modifyLane replica change) } :=
  consistent.put_same found ((consistent.alike id ticket found).modifyLane sequence)
    (Ticket.primary_modifyLane_sequence sequence) (Ticket.occupied_modifyLane fun _ => tokens _)

/-- **Giving a request up.** One that runs is marked, one that waits is forgotten together with the
id it retained. -/
theorem abort_meets (consistent : s.Consistent) (id : RequestId) :
    Meets (abort id) s
      (fun _ t =>
        (id ∈ s.running ∧ ∃ ticket, s.tickets.get? id = some ticket ∧
          t = { s with tickets := s.tickets.insert id ticket.abort }) ∨
        (id ∈ s.waiting ∧ ∃ ids, s.Frees id ids ∧ t = s.dropped id ids))
      (fun stop t => t = s ∧ stop = .refused (.requestNotFound id) ∧ id ∉ s.tickets.keys) := by
  unfold abort
  rw [meets_bind, meets_get]
  by_cases runs : id ∈ s.running
  · obtain ⟨ticket, found⟩ := consistent.found_of_running runs
    rw [if_pos runs, meets_bind]
    refine find_meets found ?_
    rw [meets_put]
    exact Or.inl ⟨runs, ticket, found, rfl⟩
  · rw [if_neg runs]
    by_cases waits : id ∈ s.waiting
    · obtain ⟨ticket, found⟩ := consistent.found_of_queued (List.mem_append_right _ waits)
      have held := sequenceOf?_of_found found
      rw [if_pos waits, meets_bind, meets_set, meets_bind]
      refine find_meets found ?_
      rw [meets_bind, meets_modify]
      unfold recycleStale
      cases attached : ticket.primary.sequence with
      | none =>
          rw [attached] at held
          exact Or.inr ⟨waits, s.ids, Frees.of_none consistent.ids held, rfl⟩
      | some stale =>
          rw [attached] at held
          have live := (consistent.live stale).mpr ⟨id, held⟩
          refine (recycle_meets (s := { s with
            waiting := s.waiting.erase id
            tickets := s.tickets.erase id }) consistent.ids live
            (consistent.unheld_of_erase held)).mono ?_ (fun _ _ => False.elim)
          rintro _ _ ⟨ids, sound, capacity, erased, rfl⟩
          exact Or.inr ⟨waits, ids, Frees.of_erase consistent.ids held sound capacity erased, rfl⟩
    · rw [if_neg waits]
      refine ⟨rfl, rfl, fun known => ?_⟩
      rcases List.mem_append.mp ((consistent.known id).mpr known) with member | member
      · exact runs member
      · exact waits member

/-- Whether a request was given up. -/
def givenUp (s : Scheduler) (id : RequestId) : Bool :=
  (s.tickets.get? id).any Ticket.abortRequested

theorem givenUp_of_found (found : s.tickets.get? id = some ticket) :
    s.givenUp id = ticket.abortRequested := by
  rw [givenUp, found]
  rfl

/-- The request that is preempted next runs and was not given up, and everything behind it was. -/
theorem victim?_spec (victim : s.victim? = some id) :
    ∃ before behind, s.running = before ++ id :: behind ∧
      (s.tickets.get? id).any Ticket.abortRequested = false ∧
      ∀ other ∈ behind, (s.tickets.get? other).any Ticket.abortRequested = true := by
  unfold victim? at victim
  obtain ⟨spared, front, back, reversed, given⟩ := List.find?_eq_some_iff_append.mp victim
  refine ⟨back.reverse, front.reverse, ?_, by simpa using spared, fun other member => ?_⟩
  · rw [← List.reverse_reverse s.running, reversed]
    simp
  · simpa using given other (List.mem_reverse.mp member)

theorem victim?_mem_running (victim : s.victim? = some id) : id ∈ s.running := by
  obtain ⟨before, behind, queue, _⟩ := victim?_spec victim
  rw [queue]
  exact List.mem_append_right _ List.mem_cons_self

end Scheduler

namespace Cluster

variable {c : Cluster}

/-- The last request that was not given up is preempted, if there is one. -/
theorem preemptLast_rule {done : RequestId → Cluster → Prop} {stopped : Stop → Cluster → Prop}
    (nobody : c.scheduler.victim? = none → stopped (.refused .nothingToPreempt) c)
    (sends : ∀ id, c.scheduler.victim? = some id →
      Meets (preempt id) c (fun _ => done id) stopped) :
    Meets preemptLast c done stopped := by
  unfold preemptLast
  rw [meets_bind, meets_get]
  cases victim : c.scheduler.victim? with
  | none => exact nobody victim
  | some id =>
      dsimp only
      rw [meets_bind]
      exact sends id victim

end Cluster

end ContinuousBatching
