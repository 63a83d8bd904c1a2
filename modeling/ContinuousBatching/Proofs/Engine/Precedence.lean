/-
**First come, first served.**

As room is made from the back of the line, an engine never preempts the request that arrived first
among those that nobody gave up. The others are never passed over either: whoever arrived later runs
only as long as everybody before does.

* `Scheduler.victim?_ne_first`: of several requests that can go on, the first one in line is not
  preempted;
* `Cluster.step_spares`: so no step preempts the first request in line, whatever it ends in;
* `Engine.line_served`: the line after any calls is in the order of arrival;
* `Engine.first_come_first_served`: the order of the line, and what follows from it.
-/

import ContinuousBatching.Proofs.Engine.Calls
import ContinuousBatching.Proofs.Scheduler.Precedence

namespace ContinuousBatching

section Lists

variable {α : Type}

/-- The first one is the first one of every part that it belongs to. -/
theorem head?_of_sublist {part list : List α} {a : α} (nodup : list.Nodup)
    (sublist : part.Sublist list) (first : list.head? = some a) (member : a ∈ part) :
    part.head? = some a := by
  cases sublist with
  | slnil => cases member
  | cons b rest =>
      cases first
      exact absurd (rest.subset member) (List.nodup_cons.mp nodup).1
  | cons_cons b rest => exact first

/-- No two stand in both orders. -/
theorem not_pair_swap {list : List α} {a b : α} (nodup : list.Nodup) (first : [a, b].Sublist list)
    (second : [b, a].Sublist list) : False := by
  induction list with
  | nil => cases first
  | cons c rest ih =>
      obtain ⟨fresh, nodup⟩ := List.nodup_cons.mp nodup
      cases first with
      | cons _ first =>
          cases second with
          | cons _ second => exact ih nodup first second
          | cons_cons _ second => exact fresh (first.subset (by simp))
      | cons_cons _ first =>
          cases second with
          | cons _ second => exact fresh (second.subset (by simp))
          | cons_cons _ second => exact fresh (first.subset (by simp))

end Lists

namespace Scheduler

variable {s : Scheduler} {id : RequestId}

theorem victim?_mem_line (victim : s.victim? = some id) : id ∈ s.line := by
  obtain ⟨before, behind, _, spared, _⟩ := victim?_spec victim
  refine List.mem_filter.mpr ⟨List.mem_append_left _ (victim?_mem_running victim), ?_⟩
  rw [givenUp, spared]
  rfl

theorem line_eq (s : Scheduler) : s.line = s.spared ++ s.waiting.filter fun id => !s.givenUp id :=
  List.filter_append ..

theorem known_of_running (tidy : s.Tidy) :
    ∀ id ∈ s.running, ∃ ticket, s.tickets.get? id = some ticket := fun id runs =>
  Registry.mem_keys_iff.mp (tidy.known id (List.mem_append_left _ runs))

/-- **Of several requests that can go on, the first one in line is not preempted.** -/
theorem victim?_ne_first (tidy : s.Tidy) {batch : List RequestId}
    (batch_eq : s.decodable = .ok batch) (crowd : ¬ batch.length ≤ 1)
    (first : s.line.head? = some id) : s.victim? ≠ some id := by
  have spared : s.decodable = .ok s.spared := by
    rw [decodable, select_eq false (known_of_running tidy), Scheduler.spared]
    simp only [beq_false]
  cases spared.symm.trans batch_eq
  intro victim
  have last : s.spared.getLast? = some id := (victim?_eq s).symm.trans victim
  have nodup : s.spared.Nodup := (List.nodup_append.mp tidy.nodup).1.filter _
  rw [line_eq] at first
  obtain ⟨head, next, rest, spared⟩ : ∃ head next rest, s.spared = head :: next :: rest := by
    cases spared : s.spared with
    | nil => exact absurd (spared ▸ Nat.zero_le 1) crowd
    | cons head others =>
        cases others with
        | nil => exact absurd (spared ▸ Nat.le_refl 1) crowd
        | cons next rest => exact ⟨head, next, rest, rfl⟩
  rw [spared] at first last nodup
  cases first
  rw [List.getLast?_cons_cons] at last
  exact (List.nodup_cons.mp nodup).1 (List.mem_of_getLast? last)

end Scheduler

/-! ### Steps -/

namespace Cluster

variable {c d e : Cluster}

/-- The request that is preempted next is not the first one in line, which stays first. -/
theorem Quiet.first_ne_victim (tidy : c.scheduler.Tidy) (quiet : c.Quiet d)
    {batch : List RequestId} (batch_eq : d.scheduler.decodable = .ok batch)
    (crowd : ¬ batch.length ≤ 1) {victim : RequestId} (chosen : d.scheduler.victim? = some victim) :
    ∀ id ∈ c.scheduler.line.head?, id ≠ victim := by
  rintro id first rfl
  have stays := head?_of_sublist (Scheduler.line_nodup tidy) quiet.scheduler.line first
    (Scheduler.victim?_mem_line chosen)
  exact Scheduler.victim?_ne_first quiet.tidy batch_eq crowd stays chosen

/-- **Making room.** The requests move along the line; as the first one in it is never the last one
that can go on, it is not sent back. -/
theorem makeRoom_spares (tidy : c.scheduler.Tidy) (victims : Nat) (d : Cluster)
    (quiet : c.Quiet d) :
    Meets (makeRoom victims) d
      (fun later e => c.Quiet e ∧ ∀ id ∈ c.scheduler.line.head?, id ∉ later ∧
        (id ∉ d.scheduler.waiting → id ∉ e.scheduler.waiting))
      (fun _ e => c.Quiet e ∧ ∀ id ∈ c.scheduler.line.head?,
        id ∉ d.scheduler.waiting → id ∉ e.scheduler.waiting) := by
  have still : c.Quiet d ∧ ∀ id ∈ c.scheduler.line.head?,
      id ∉ d.scheduler.waiting → id ∉ d.scheduler.waiting := ⟨quiet, fun _ _ runs => runs⟩
  refine makeRoom_turn (fun _ _ => still) (fun _ _ _ _ => still) (fun _ _ _ _ => still)
    (fun _ _ _ => ⟨quiet, fun _ _ => ⟨List.not_mem_nil, fun runs => runs⟩⟩)
    fun batch more fewer listed _ crowd => ?_
  refine (preemptLast_quiet quiet.tidy).mono ?_ fun _ e steady =>
    ⟨quiet.trans (steady.quiet quiet.tidy), fun _ _ runs => steady.scheduler.waiting ▸ runs⟩
  rintro victim e ⟨chosen, sent, waiting, _⟩
  have other := quiet.first_ne_victim tidy listed (Nat.not_le_of_lt crowd) chosen
  have kept : ∀ id ∈ c.scheduler.line.head?, id ∉ d.scheduler.waiting →
      id ∉ e.scheduler.waiting := fun id first runs => by
    rw [waiting, List.mem_cons, not_or]
    exact ⟨other id first, runs⟩
  refine (makeRoom_spares tidy more e (quiet.trans sent)).mono ?_ ?_
  · rintro later f ⟨quiet, spared⟩
    refine ⟨quiet, fun id first => ⟨?_, fun runs => ?_⟩⟩
    · rw [List.mem_cons, not_or]
      exact ⟨other id first, (spared id first).1⟩
    · exact (spared id first).2 (kept id first runs)
  · rintro _ f ⟨quiet, spared⟩
    exact ⟨quiet, fun id first runs => spared id first (kept id first runs)⟩
termination_by victims
decreasing_by omega

/-- Feeding a batch moves requests along the line only. It preempts nobody if somebody was admitted,
and never the first one in line. -/
theorem feedBatch_spares (tidy : c.scheduler.Tidy) (forward : c.Forward d)
    (admitted : List RequestId) :
    Meets (feedBatch admitted) d
      (fun report e => (c.Quiet e ∧ Spares c.scheduler.line.head? c e) ∧
        ∀ id ∈ c.scheduler.line.head?, id ∉ report.preempted)
      (fun _ e => c.Quiet e ∧ Spares c.scheduler.line.head? c e) := by
  have fed : ∀ {e f}, c.Quiet e ∧ Spares c.scheduler.line.head? c e → e.Steady f →
      c.Quiet f ∧ Spares c.scheduler.line.head? c f := fun ⟨quiet, spares⟩ steady =>
    ⟨quiet.trans (steady.quiet spares.tidy),
      spares.trans (.of_forward (steady.forward spares.tidy))⟩
  have started : c.Quiet d ∧ Spares c.scheduler.line.head? c d :=
    ⟨forward.quiet, .of_forward forward⟩
  refine feedBatch_rule (fun _ => ?_) (fun _ _ => started) fun _ _ => ?_
  · exact Meets.mono (prefillAll_steady admitted d)
      (fun _ e steady => ⟨fed started steady, fun _ _ => List.not_mem_nil⟩)
      (fun _ e steady => fed started steady)
  · have moved : ∀ {e}, c.Quiet e → (∀ id ∈ c.scheduler.line.head?,
        id ∉ d.scheduler.waiting → id ∉ e.scheduler.waiting) →
        c.Quiet e ∧ Spares c.scheduler.line.head? c e := fun quiet spared =>
      ⟨quiet, quiet.scheduler.toOrderly, fun id first runs =>
        spared id first fun waits => runs (forward.scheduler.waits waits)⟩
    refine (makeRoom_spares tidy _ d forward.quiet).mono ?_
      (fun _ e ⟨quiet, spared⟩ => moved quiet spared)
    rintro preempted e ⟨quiet, spared⟩
    have spares := moved quiet fun id first => (spared id first).2
    refine (Yields.anyhow _).mono (fun scheduled _ => ?_) (fun _ _ => spares)
    exact Meets.mono (decodeAll_steady scheduled e)
      (fun _ f steady => ⟨fed spares steady, fun id first => (spared id first).1⟩)
      (fun _ f steady => fed spares steady)

/-- Admission sends nobody back to wait. -/
theorem admitFitting_forward (tidy : c.scheduler.Tidy) (slots : Nat) :
    Leads Forward (admitFitting slots) c :=
  (startWaiting_forward tidy _ _ _).bind Forward.trans fun admitted d forward =>
    Leads.bind Forward.trans ((recordAll_steady admitted .admitted d).mono fun _ steady =>
      steady.forward forward.tidy) fun _ _ more => .refl more.tidy

/-- **The first half of a step** does not preempt the first one in line. -/
theorem turn_spares (tidy : c.scheduler.Tidy) (slots : Nat) :
    Meets (turn slots) c
      (fun report d => (c.Quiet d ∧ Spares c.scheduler.line.head? c d) ∧
        ∀ id ∈ c.scheduler.line.head?, id ∉ report.preempted)
      (fun _ d => c.Quiet d ∧ Spares c.scheduler.line.head? c d) := by
  unfold turn
  rw [meets_bind]
  exact Meets.mono (admitFitting_forward tidy slots)
    (fun admitted d forward => feedBatch_spares tidy forward admitted)
    (fun _ _ forward => ⟨forward.quiet, .of_forward forward⟩)

/-- **A step** does not preempt the first one in line, whatever it ends in. -/
theorem step_spares (tidy : c.scheduler.Tidy) (tokenizer : Tokenizer) (settings : EngineSettings) :
    Meets (Cluster.step tokenizer settings) c
      (fun report d => Spares c.scheduler.line.head? c d ∧
        ∀ id ∈ c.scheduler.line.head?, id ∉ report.preempted)
      (fun _ d => Spares c.scheduler.line.head? c d) := by
  refine step_rule (fun _ => ⟨.refl tidy, fun _ _ => List.not_mem_nil⟩) fun _ => ?_
  refine (turn_spares tidy _).mono ?_ (fun _ _ stopped => stopped.2)
  rintro first d ⟨⟨_, spares⟩, spared⟩
  refine (Yields.anyhow _).mono (fun ids _ => ?_) (fun _ _ => spares)
  refine Meets.mono (process_spares spares.tidy ids tokenizer settings.maxLength)
    (fun finished e more => ?_) (fun _ _ more => spares.trans more)
  replace spares := spares.trans more
  exact Meets.mono (recordAll_steady finished .finished e)
    (fun _ f steady => ⟨spares.trans (.of_forward (steady.forward spares.tidy)), spared⟩)
    (fun _ f steady => spares.trans (.of_forward (steady.forward spares.tidy)))

end Cluster

/-! ### Calls -/

/-- The name under which a request was accepted. -/
def Answer.name? : Answer → Option RequestId
  | .named id => some id
  | _ => none

namespace Engine

variable {engine after : Engine}

theorem submit_follows (tidy : engine.cluster.scheduler.Tidy) (submission : Submission) :
    Meets (submit submission) engine
      (fun id after => engine.cluster.scheduler.Follows (some id) after.cluster.scheduler)
      (fun _ after => engine.cluster.scheduler.Follows none after.cluster.scheduler) := by
  have idle : engine.cluster.scheduler.Follows none engine.cluster.scheduler :=
    (Cluster.Forward.refl tidy).scheduler.toOrderly.follows
  refine submit_rule (fun _ _ same _ => same.cluster ▸ idle) fun id named same => ?_
  rw [← same.cluster] at tidy ⊢
  exact Cluster.add_follows tidy _

theorem abort_follows (tidy : engine.cluster.scheduler.Tidy) (id : RequestId) :
    Leads (fun before after => before.cluster.scheduler.Follows none after.cluster.scheduler)
      (abort id) engine := by
  unfold abort
  rw [Leads, meets_onCluster, meets_bind]
  refine Meets.mono (Cluster.onScheduler_forward (Scheduler.abort_forward tidy id))
    (fun _ d forward => ?_) (fun _ _ forward => forward.scheduler.toOrderly.follows)
  rw [Cluster.meets_record]
  exact forward.scheduler.toOrderly.follows

/-- A step does not preempt the first one in line. -/
theorem step_spares (tidy : engine.cluster.scheduler.Tidy) :
    Meets step engine
      (fun report after =>
        Cluster.Spares engine.cluster.scheduler.line.head? engine.cluster after.cluster ∧
          ∀ id ∈ engine.cluster.scheduler.line.head?, id ∉ report.preempted)
      (fun _ after =>
        Cluster.Spares engine.cluster.scheduler.line.head? engine.cluster after.cluster) := by
  unfold step
  rw [meets_bind, meets_get, meets_onCluster]
  exact Cluster.step_spares tidy _ _

/-- **A call** lets at most the request join that it names. -/
theorem call_follows (tidy : engine.cluster.scheduler.Tidy) (call : Call) :
    Meets call.run engine
      (fun answer after =>
        engine.cluster.scheduler.Follows answer.name? after.cluster.scheduler)
      (fun _ after => engine.cluster.scheduler.Follows none after.cluster.scheduler) := by
  cases call with
  | submit submission =>
      unfold Call.run
      rw [meets_map]
      exact submit_follows tidy submission
  | abort id =>
      unfold Call.run
      rw [meets_map]
      exact abort_follows tidy id
  | step =>
      unfold Call.run
      rw [meets_map]
      exact (step_spares tidy).mono (fun _ _ spares => spares.1.orderly.follows)
        fun _ _ spares => spares.orderly.follows

theorem answer_follows (tidy : engine.cluster.scheduler.Tidy) {call : Call} {answer : Answer}
    (answered : engine.answer call = some (answer, after)) :
    engine.cluster.scheduler.Follows answer.name? after.cluster.scheduler :=
  of_answered ((call_follows tidy call).mono (fun _ _ follows => follows)
    fun _ _ follows _ _ => follows) answered

/-- **The line after any calls**: it stays in the order of arrival. -/
theorem line_served (tidy : engine.cluster.scheduler.Tidy) {log : List RequestId}
    (ordered : engine.cluster.scheduler.line.Sublist log.dedup) {calls : List Call}
    {answers : List Answer} (served : engine.serve calls = some (answers, after)) :
    after.cluster.scheduler.Tidy ∧
      after.cluster.scheduler.line.Sublist (log ++ answers.filterMap Answer.name?).dedup := by
  induction calls generalizing engine answers log with
  | nil =>
      cases served
      rw [List.filterMap_nil, List.append_nil]
      exact ⟨tidy, ordered⟩
  | cons call rest ih =>
      obtain ⟨first, middle, later, answered, onwards, rfl⟩ := serve_cons.mp served
      have follows := answer_follows tidy answered
      have both : (first :: later).filterMap Answer.name? =
          first.name?.toList ++ later.filterMap Answer.name? := by
        cases first <;> rfl
      rw [both, ← List.append_assoc]
      exact ih follows.tidy (follows.ordered ordered) onwards

end Engine

/-! ### First come, first served -/

/-- The requests that nobody gave up stand in the order in which they arrived, the latest time for
each name. So nobody runs unless everybody does who arrived before and is still queued. -/
structure Scheduler.FirstCome (s : Scheduler) (log : List RequestId) : Prop where
  ordered : s.line.Sublist log.dedup
  fair : ∀ older younger, [older, younger].Sublist log.dedup → older ∈ s.line →
    younger ∈ s.line → younger ∈ s.running → older ∈ s.running

/-- Who stands before somebody who runs runs as well. -/
theorem Scheduler.FirstCome.of_line {s : Scheduler} {log : List RequestId}
    (ordered : s.line.Sublist log.dedup) : s.FirstCome log := by
  refine ⟨ordered, fun older younger before queued spared runs => ?_⟩
  by_contra idle
  have waits : older ∈ s.waiting.filter fun id => !s.givenUp id := by
    rw [line_eq, List.mem_append] at queued
    exact queued.resolve_left fun spared => idle (List.mem_of_mem_filter spared)
  have first : younger ∈ s.spared :=
    List.mem_filter.mpr ⟨runs, (List.mem_filter.mp spared).2⟩
  have swapped : [younger, older].Sublist s.line := by
    rw [line_eq]
    exact (List.singleton_sublist.mpr first).append (List.singleton_sublist.mpr waits)
  exact not_pair_swap (List.nodup_dedup log) before (swapped.trans ordered)

namespace Engine

/-- **First come, first served.** After any history of operations the requests that nobody gave up
stand in the order of arrival, and so they do after any calls of an engine, whatever its replicas
do. There the one that arrived first is not preempted by the next step, and if it runs it does not
wait afterwards, even if the step is refused. -/
theorem first_come_first_served :
    (∀ (replicas : List Replica) (lanes : Nat) (ids : SequenceIds)
        (history : List Cluster.Operation) (c : Cluster),
      (Cluster.ofReplicas replicas lanes ids).after history = some c →
      c.scheduler.FirstCome ((Cluster.ofReplicas replicas lanes ids).arrivals history)) ∧
    ∀ (replicas : List Replica) (tokenizer : Tokenizer) (settings : EngineSettings)
        (built start engine : Engine) (calls : List Call) (answers : List Answer),
      ofReplicas replicas tokenizer settings = .ok built → start = built ∨ start = built.traced →
      start.serve calls = some (answers, engine) →
      engine.cluster.scheduler.FirstCome (answers.filterMap Answer.name?) ∧
        Meets step engine
          (fun report after => ∀ oldest ∈ engine.cluster.scheduler.line.head?,
            oldest ∉ report.preempted ∧ (oldest ∈ engine.cluster.scheduler.running →
              oldest ∉ after.cluster.scheduler.waiting))
          (fun _ after => ∀ oldest ∈ engine.cluster.scheduler.line.head?,
            oldest ∈ engine.cluster.scheduler.running →
              oldest ∉ after.cluster.scheduler.waiting) := by
  have empty : ∀ replicas ids, (Scheduler.ofSize replicas ids).line.Sublist
      ([] : List RequestId).dedup := fun _ _ => List.Sublist.refl []
  constructor
  · intro replicas lanes ids history c ended
    exact .of_line (Cluster.line_after (Scheduler.tidy_ofSize lanes ids) (empty lanes ids) ended).2
  · intro replicas tokenizer settings built start engine calls answers created same served
    obtain ⟨_, rfl⟩ := (ofReplicas_yields _ _ _).of_ok created
    have fresh : start.cluster.scheduler =
        .ofSize replicas.length (.ofCapacity settings.maxSequenceIds) := by
      rcases same with rfl | rfl <;> rfl
    obtain ⟨tidy, ordered⟩ := line_served (fresh ▸ Scheduler.tidy_ofSize _ _) (fresh ▸ empty _ _)
      served
    refine ⟨.of_line ordered, (step_spares tidy).mono ?_ ?_⟩
    · rintro report after ⟨spares, spared⟩ oldest first
      exact ⟨spared oldest first, fun runs => spares.kept oldest first (tidy.not_waiting runs)⟩
    · intro _ after spares oldest first runs
      exact spares.kept oldest first (tidy.not_waiting runs)

/-- A history in which the second of three running requests is preempted, as the last one was given
up, and a fourth one leaves and comes back. -/
def shuffledHistory : List Cluster.Operation :=
  let request (id : RequestId) : Request := ⟨id, [.tokens [1, 2, 3]], .usual⟩
  let fed (id : RequestId) : List Cluster.Operation :=
    [.changeLane id 0 .takeInputs, .commit id 0 (.plain 3 .one)]
  [.add (request "a"), .add (request "b"), .add (request "c"),
    .start 3 (fun _ _ _ => (true, ())) ()] ++ fed "a" ++ fed "b" ++ fed "c" ++
    [.abort "c", .preemptLast, .add (request "d"), .abort "d", .add (request "b"),
      .add (request "d")]

/-- The line after this history; and an engine whose next step preempts the second one of two
requests. -/
theorem first_come_first_served_shuffled :
    (∃ c, (Cluster.ofReplicas [.paged (.ofSize "first" 8 2 Cluster.countTokens)] 1
        (.ofCapacity 4)).after shuffledHistory = some c ∧
      c.scheduler.running = ["a", "c"] ∧ c.scheduler.waiting = ["b", "d"] ∧
      c.scheduler.FirstCome ["a", "b", "c", "d", "d"]) ∧
    ∃ answers engine report after,
      tinyEngine.serve (.submit (tinySubmission "a") :: .submit (tinySubmission "b") ::
        List.replicate 5 .step) = some (answers, engine) ∧
      step engine = .ok report after ∧ report.preempted = ["b"] ∧
      engine.cluster.scheduler.FirstCome ["a", "b"] ∧
      engine.cluster.scheduler.line.head? = some "a" ∧ "a" ∉ report.preempted ∧
      "a" ∉ after.cluster.scheduler.waiting := by
  constructor
  · have state : ((Cluster.ofReplicas [.paged (.ofSize "first" 8 2 Cluster.countTokens)] 1
        (.ofCapacity 4)).after shuffledHistory).any (fun c =>
          decide (c.scheduler.running = ["a", "c"]) &&
          decide (c.scheduler.waiting = ["b", "d"])) = true := by
      decide +kernel
    have arrived : (Cluster.ofReplicas [.paged (.ofSize "first" 8 2 Cluster.countTokens)] 1
        (.ofCapacity 4)).arrivals shuffledHistory = ["a", "b", "c", "d", "d"] := by
      decide +kernel
    obtain ⟨c, ended, state⟩ := Option.any_eq_true .. |>.mp state
    rw [Bool.and_eq_true, decide_eq_true_iff, decide_eq_true_iff] at state
    exact ⟨c, ended, state.1, state.2, arrived ▸ first_come_first_served.1 _ _ _ _ c ended⟩
  · have state : (tinyEngine.serve (.submit (tinySubmission "a") :: .submit (tinySubmission "b") ::
        List.replicate 5 .step)).any (fun ending =>
          decide (ending.1.filterMap Answer.name? = ["a", "b"]) &&
          decide (ending.2.cluster.scheduler.line.head? = some "a") &&
          decide ("a" ∈ ending.2.cluster.scheduler.running) &&
          (completed step ending.2).any fun report =>
            decide (report.1.preempted = ["b"])) = true := by
      decide +kernel
    obtain ⟨⟨answers, engine⟩, served, state⟩ := Option.any_eq_true .. |>.mp state
    simp only [Bool.and_eq_true, decide_eq_true_eq] at state
    obtain ⟨⟨⟨named, first⟩, runs⟩, stepped⟩ := state
    obtain ⟨line, spares⟩ := first_come_first_served.2 (tinyCaches.map .paged)
      tinyPremises.tokenizer tinyPremises.settings tinyEngine tinyEngine engine _ answers rfl
      (Or.inl rfl) served
    obtain ⟨⟨report, after⟩, taken, preempts⟩ := Option.any_eq_true .. |>.mp stepped
    have taken := completed_eq_some.mp taken
    have spared := (meets_iff_of_ok taken).mp spares "a" first
    exact ⟨answers, engine, report, after, served, taken, of_decide_eq_true preempts,
      named ▸ line, first, spared.1, spared.2 runs⟩

end Engine

end ContinuousBatching
