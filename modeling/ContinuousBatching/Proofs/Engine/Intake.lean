/-
**Admission takes as many as it can.**

The admission phase of a step takes the longest part at the front of the waiting queue that has free
slots and fits together: fed from the start, all its requests find room in the blocks that are free
in every cache. Nobody behind the first one that does not fit is taken, even if it would fit.

* `Cluster.FitsTogether`: what fits, said about the cluster before the step;
* `Cluster.TakesIn`: what admission does with a part of the waiting queue, and that no other part
  that fits is longer;
* `Cluster.startWhile_takes`: the requests are tested one after the other, behind what was reserved
  for those before (`Cluster.FitsBehind`);
* `Cluster.admitFitting_takesIn`: admission takes in the longest part that fits;
* `Engine.takes_in_most`: **the admission phase of a step**, after any calls.
-/

import ContinuousBatching.Proofs.Engine.Interruption
import ContinuousBatching.Proofs.Engine.Receptive

namespace ContinuousBatching

/-- The step fed these requests their input, or there were none and it did something else. -/
def StepReport.Prefills (report : StepReport) (front : List RequestId) : Prop :=
  if front = [] then report.kind ≠ .prefill
  else report.kind = .prefill ∧ report.scheduled = front ∧ report.preempted = []

namespace Cluster

variable {c d : Cluster} {caches : List PagedCache} {front more : List RequestId} {id : RequestId}
  {ticket : Ticket} {slots capacity : Nat}

/-- The positions that a request is fed from the start: its input and the tokens it has. -/
def replayLength (c : Cluster) (id : RequestId) : Nat :=
  ((c.scheduler.tickets.get? id).map fun ticket =>
    ticket.request.inputLength + ticket.primary.committed.length).getD 0

/-- So many slots are free, and in every cache the free blocks suffice for all of these requests
when they are fed from the start. -/
structure FitsTogether (slots : Nat) (c : Cluster) (front : List RequestId) : Prop where
  slots : front.length ≤ slots - c.scheduler.running.length
  blocks : ∀ cache ∈ c.caches,
    (front.map fun id => c.replayLength id ⌈/⌉ cache.pool.blockSize).sum ≤
      cache.pool.freeCount

instance {front : List RequestId} : Decidable (c.FitsTogether slots front) :=
  decidable_of_iff
    (front.length ≤ slots - c.scheduler.running.length ∧ ∀ cache ∈ c.caches,
      (front.map fun id => c.replayLength id ⌈/⌉ cache.pool.blockSize).sum ≤
        cache.pool.freeCount)
    ⟨fun both => ⟨both.1, both.2⟩, fun fits => ⟨fits.slots, fits.blocks⟩⟩

/-- Admission moves these requests, and nobody else, from the front of the waiting queue to the back
of the running one, and no longer part at the front fits together. -/
structure TakesIn (slots : Nat) (c : Cluster) (front : List RequestId) (d : Cluster) : Prop where
  fits : c.FitsTogether slots front
  most : ∀ more, more <+: c.scheduler.waiting → c.FitsTogether slots more → more <+: front
  /-- Apart from what was written down. -/
  seated : c.Seated front { d with trace := c.trace }
  /-- Each of them has one sequence on all of its lanes, which is registered with every cache and
  which nobody else holds. -/
  housed : ∀ id ∈ front, ∃ ticket sequence, d.scheduler.tickets.get? id = some ticket ∧
    (∀ lane ∈ ticket.lanes, lane.sequence = some sequence) ∧
    (∀ other, d.scheduler.sequenceOf? other = some sequence → other = id) ∧
    ∀ cache ∈ d.caches, cache.sequences.get? sequence = some ⟨.ofBlockSize cache.pool.blockSize, []⟩

/-! ### Admission request by request -/

/-- So many slots are free, and in every cache the free blocks suffice for what was reserved and
for all of these requests. -/
structure FitsBehind (reserved : List Nat) (slots : Nat) (c : Cluster)
    (front : List RequestId) : Prop where
  slots : front.length ≤ slots - c.scheduler.running.length
  blocks : ∀ cache ∈ c.caches, ((reserved ++ front.map c.replayLength).map fun length =>
    length ⌈/⌉ cache.pool.blockSize).sum ≤ cache.pool.freeCount

theorem fitsBehind_nil_iff : c.FitsBehind [] slots front ↔ c.FitsTogether slots front := by
  have same : ∀ cache : PagedCache, (([] : List Nat) ++ front.map c.replayLength).map
      (fun length => length ⌈/⌉ cache.pool.blockSize) =
      front.map fun id => c.replayLength id ⌈/⌉ cache.pool.blockSize := fun cache => by
    rw [List.nil_append, List.map_map]
    rfl
  constructor
  · rintro ⟨slots, blocks⟩
    exact ⟨slots, fun cache member => same cache ▸ blocks cache member⟩
  · rintro ⟨slots, blocks⟩
    exact ⟨slots, fun cache member => (same cache).symm ▸ blocks cache member⟩

/-- What is reserved for fewer fits as well. -/
theorem FitsBehind.first {reserved : List Nat} (fits : c.FitsBehind reserved slots (id :: more)) :
    c.scheduler.running.length < slots ∧ ∀ cache ∈ c.caches,
      ((reserved ++ [c.replayLength id]).map fun length =>
        length ⌈/⌉ cache.pool.blockSize).sum ≤ cache.pool.freeCount := by
  refine ⟨?_, fun cache member => ?_⟩
  · have many := fits.slots
    rw [List.length_cons] at many
    omega
  · have enough := fits.blocks cache member
    rw [List.map_cons, List.append_cons, List.map_append, List.sum_append] at enough
    exact Nat.le_trans (Nat.le_add_right _ _) enough

theorem replayLength_of_found (found : c.scheduler.tickets.get? id = some ticket) :
    c.replayLength id = ticket.request.inputLength + ticket.primary.committed.length := by
  rw [replayLength, found]
  rfl

/-- A start changes nothing about what has to be fed. -/
theorem replayLength_started {sequence : SequenceId} {ids : SequenceIds}
    (found : c.scheduler.tickets.get? id = some ticket) :
    (c.started caches id ticket sequence ids).replayLength = c.replayLength := by
  funext other
  unfold replayLength
  show (((c.scheduler.tickets.insert id _).get? other).map _).getD 0 = _
  rw [Registry.get?_insert]
  split
  · rename_i here
    rw [here, found]
    rfl
  · rfl

/-- Once a request has started, what fits behind it is what fits together with it. -/
theorem fitsBehind_started {sequence : SequenceId} {ids : SequenceIds} {reserved : List Nat}
    (owned : c.Owned caches)
    (kept : (c.started caches id ticket sequence ids).Owned
      (caches.map fun cache => cache.registered sequence))
    (found : c.scheduler.tickets.get? id = some ticket)
    (room : c.scheduler.running.length < slots) :
    (c.started caches id ticket sequence ids).FitsBehind (reserved ++ [c.replayLength id]) slots
        more ↔
      c.FitsBehind reserved slots (id :: more) := by
  have longer : (c.started caches id ticket sequence ids).scheduler.running.length =
      c.scheduler.running.length + 1 := List.length_append
  have lengths : reserved ++ [c.replayLength id] ++
      more.map (c.started caches id ticket sequence ids).replayLength =
      reserved ++ (id :: more).map c.replayLength := by
    rw [replayLength_started found, List.map_cons, List.append_assoc]
    rfl
  constructor
  · rintro ⟨slots, blocks⟩
    rw [longer] at slots
    rw [kept.caches_eq, lengths] at blocks
    refine ⟨?_, fun cache member => ?_⟩
    · rw [List.length_cons]
      omega
    · rw [owned.caches_eq] at member
      exact blocks (cache.registered sequence) (List.mem_map_of_mem member)
  · rintro ⟨slots, blocks⟩
    rw [List.length_cons] at slots
    refine ⟨?_, fun cache member => ?_⟩
    · rw [longer]
      omega
    · rw [kept.caches_eq] at member
      obtain ⟨before, was, rfl⟩ := List.mem_map.mp member
      rw [lengths]
      exact blocks before (owned.caches_eq ▸ was)

/-- **The test of the request at the front** is whether it fits together with what was reserved. -/
theorem Receptive.test_yields {reserved : List Nat} (receptive : c.Receptive capacity)
    (waits : id ∈ c.scheduler.waiting) (found : c.scheduler.tickets.get? id = some ticket) :
    Yields (fitsReserved reserved ticket c.replicas)
      (fun answer => (answer.1 = true ↔ ∀ cache ∈ c.caches,
          ((reserved ++ [c.replayLength id]).map fun length =>
            length ⌈/⌉ cache.pool.blockSize).sum ≤ cache.pool.freeCount) ∧
        (answer.1 = true → answer.2 = reserved ++ [c.replayLength id]))
      (fun stop => stop = .fault .overflow) := by
  obtain ⟨caches, owned⟩ := receptive.inOrder
  have divided := receptive.divided
  rw [owned.caches_eq] at divided ⊢
  rw [replayLength_of_found found, ← receptive.startsOver id waits ticket found, owned.replicas]
  exact (fitsReserved_yields divided reserved ticket).mono (fun _ exact => exact)
    fun _ large => large.1

/-- **Admission, one request after the other.** It takes the longest part at the front that fits
behind what was reserved, and only a count of more than 64 bits stops it. -/
theorem startWhile_takes (roomy : slots ≤ capacity) :
    ∀ (list : List RequestId) (reserved : List Nat) (c : Cluster), c.Receptive capacity →
      c.scheduler.waiting = list → c.FitsBehind reserved slots [] →
      Meets (startWhile slots fitsReserved reserved list) c
        (fun front _ => c.FitsBehind reserved slots front ∧
          ∀ more, more <+: list → c.FitsBehind reserved slots more → more <+: front)
        (fun stop _ => stop = .fault .overflow)
  | [], _, _, _, _, nobody => ⟨nobody, fun _ first _ => first⟩
  | id :: rest, reserved, c, receptive, front, nobody => by
      obtain ⟨caches, owned⟩ := receptive.inOrder
      have waits : id ∈ c.scheduler.waiting := front ▸ List.mem_cons_self
      refine owned.startWhile_rule front (fun turned => ⟨nobody, fun more first fits => ?_⟩)
        (fun ticket stop found => (receptive.test_yields waits found).of_error)
        (fun room unattached full => ?_) (fun _ => rfl) ?_
      · cases more with
        | nil => exact List.nil_prefix
        | cons other more =>
            obtain ⟨rfl, _⟩ := List.cons_prefix_cons.mp first
            obtain ⟨room, enough⟩ := fits.first
            obtain ⟨ticket, later, found, declined⟩ := turned room
            exact absurd (((receptive.test_yields waits found).of_ok declined).1.mpr enough)
              Bool.false_ne_true
      · have live := receptive.retentive.length_live_le owned.consistent front unattached
        have ids := receptive.capacity
        omega
      · intro ticket later sequence ids found room accepted same _ kept
        obtain ⟨enough, noted⟩ := (receptive.test_yields waits found).of_ok accepted
        obtain rfl : later = reserved ++ [c.replayLength id] := noted rfl
        have behind : ∀ {more}, _ ↔ c.FitsBehind reserved slots (id :: more) :=
          fitsBehind_started owned kept found room
        have alone : c.FitsBehind reserved slots [id] := by
          refine ⟨?_, enough.mp rfl⟩
          rw [List.length_singleton]
          omega
        refine (startWhile_takes roomy rest _ _ (receptive.started owned front found same kept)
          (waiting_started front) (behind.mpr alone)).mono ?_ (fun _ _ stopped => stopped)
        rintro taken _ ⟨fitted, most⟩
        refine ⟨behind.mp fitted, fun more first fits => ?_⟩
        cases more with
        | nil => exact List.nil_prefix
        | cons other more =>
            obtain ⟨rfl, next⟩ := List.cons_prefix_cons.mp first
            exact List.cons_prefix_cons.mpr ⟨rfl, most more next (behind.mpr fits)⟩

/-- **Admission** takes in the longest part at the front that fits. -/
theorem admitFitting_takesIn (receptive : c.Receptive capacity) (roomy : slots ≤ capacity) :
    Meets (admitFitting slots) c (fun front d => c.TakesIn slots front d)
      (fun stop _ => stop = .fault .overflow) := by
  have takes : Meets (admitFitting slots) c
      (fun front _ => c.FitsTogether slots front ∧
        ∀ more, more <+: c.scheduler.waiting → c.FitsTogether slots more → more <+: front)
      (fun stop _ => stop = .fault .overflow) := by
    unfold admitFitting startWaiting
    rw [meets_bind, meets_bind, meets_get]
    have nobody : c.FitsBehind [] slots [] := ⟨Nat.zero_le _, fun _ _ => Nat.zero_le _⟩
    refine (startWhile_takes roomy c.scheduler.waiting [] c receptive rfl nobody).mono ?_
      (fun _ _ stopped => stopped)
    rintro front d ⟨fits, most⟩
    rw [meets_bind]
    refine (recordAll_meets front .admitted d).mono (fun _ _ _ => ?_) (fun _ _ => False.elim)
    exact ⟨fitsBehind_nil_iff.mp fits, fun more first fits =>
      most more first (fitsBehind_nil_iff.mpr fits)⟩
  refine (takes.and (admitFitting_seats receptive.inOrder slots)).mono ?_
    (fun _ _ stopped => stopped.1)
  rintro front d ⟨⟨fits, most⟩, seated⟩
  exact ⟨fits, most, seated, seated.housed⟩

/-- Who was admitted is fed. -/
theorem feedBatch_prefills (front : List RequestId) (d : Cluster) :
    Meets (feedBatch front) d (fun report _ => report.Prefills front) (fun _ _ => True) := by
  refine feedBatch_rule (fun some => ?_) (fun _ _ => trivial) fun none _ => ?_
  · refine (Meets.anyhow _ _).mono (fun _ _ _ => ?_) (fun _ _ _ => trivial)
    rw [StepReport.Prefills, if_neg some]
    exact ⟨rfl, rfl, rfl⟩
  · subst none
    refine (Meets.anyhow _ _).mono (fun preempted e _ => ?_) (fun _ _ _ => trivial)
    refine (Yields.anyhow _).mono (fun scheduled _ => ?_) (fun _ _ => trivial)
    exact (Meets.anyhow _ _).mono (fun _ _ _ => StepKind.noConfusion) (fun _ _ _ => trivial)

/-- A step feeds whom it admits. -/
theorem step_prefills {tokenizer : Tokenizer} {settings : EngineSettings}
    (known : front ⊆ c.scheduler.tickets.keys)
    (admits : admitFitting settings.maxRunning c = .ok front d) :
    Meets (step tokenizer settings) c (fun report _ => report.Prefills front)
      (fun _ _ => True) := by
  refine step_rule (fun idle => ?_) fun _ => ?_
  · rw [Scheduler.keys_of_idle idle] at known
    rw [List.subset_nil.mp known]
    exact StepKind.noConfusion
  unfold turn
  rw [meets_bind, meets_iff_of_ok admits]
  refine (feedBatch_prefills front d).mono (fun report e fed => ?_) (fun _ _ _ => trivial)
  refine (Yields.anyhow _).mono (fun ids _ => ?_) (fun _ _ => trivial)
  refine (Meets.anyhow _ _).mono (fun finished _ _ => ?_) (fun _ _ _ => trivial)
  exact (Meets.anyhow _ _).mono (fun _ _ _ => fed) (fun _ _ _ => trivial)

end Cluster

namespace Engine

/-- An engine without requests is receptive, and it has a sequence id for every slot. -/
theorem Opens.receptive {caches : List PagedCache} {tokenizer : Tokenizer}
    {settings : EngineSettings} {engine : Engine} (opens : engine.Opens caches tokenizer settings)
    (fresh : ∀ cache ∈ caches, cache.IsFresh)
    (divided : ∀ cache ∈ caches, 0 < cache.pool.blockSize) :
    engine.cluster.Receptive settings.maxSequenceIds ∧ engine.settings = settings ∧
      settings.maxRunning ≤ settings.maxSequenceIds := by
  obtain ⟨built, ran, same⟩ := opens
  obtain ⟨⟨_, roomy, _⟩, rfl⟩ := (ofReplicas_yields _ _ _).of_ok ran
  have receptive := Cluster.receptive_ofReplicas fresh divided (caches.map Replica.paged).length
    settings.maxSequenceIds
  rcases same with rfl | rfl
  · exact ⟨receptive, rfl, roomy⟩
  · exact ⟨receptive.congr rfl rfl, rfl, roomy⟩

/-- **Admission takes as many as it can.** Take an engine over caches of blocks, with any tokenizer,
after any calls, whatever was refused among them, and let every count in its next admission fit 64
bits. Then admission moves the longest part at the front of the waiting queue that has free slots
and fits together, in every cache, to the back of the running queue, each request with one sequence
of its own, and leaves the others alone. A step that comes to its end has fed exactly these requests
their input, if there are any. -/
theorem takes_in_most {caches : List PagedCache} {tokenizer : Tokenizer}
    {settings : EngineSettings} {start engine : Engine} {calls : List Call}
    {answers : List Answer} (fresh : ∀ cache ∈ caches, cache.IsFresh)
    (divided : ∀ cache ∈ caches, 0 < cache.pool.blockSize)
    (opens : start.Opens caches tokenizer settings)
    (served : start.serve calls = some (answers, engine))
    (countable : ∀ c, Cluster.admitFitting settings.maxRunning engine.cluster ≠
      .error (.fault .overflow) c) :
    ∃ front c, Cluster.admitFitting settings.maxRunning engine.cluster = .ok front c ∧
      engine.cluster.TakesIn settings.maxRunning front c ∧
      ∀ report after, step engine = .ok report after → report.Prefills front := by
  obtain ⟨receptive, opened, roomy⟩ := opens.receptive fresh divided
  replace receptive := receptive_served receptive served
  have same : engine.settings = settings := (served_settings served).trans opened
  rcases (Cluster.admitFitting_takesIn receptive roomy).ends with ⟨front, c, admits, taken⟩ |
    ⟨stop, c, stops, rfl⟩
  · refine ⟨front, c, admits, taken, fun report after ended => ?_⟩
    obtain ⟨_, owned⟩ := receptive.inOrder
    have known : front ⊆ engine.cluster.scheduler.tickets.keys := fun id member => by
      refine (owned.consistent.known id).mp (List.mem_append_right _ ?_)
      rw [taken.seated.waiting]
      exact List.mem_append_left _ member
    have prefills : Meets step engine (fun report _ => report.Prefills front)
        (fun _ _ => True) := by
      rw [← same] at admits
      unfold step
      rw [meets_bind, meets_get, meets_onCluster]
      exact Cluster.step_prefills known admits
    exact (meets_iff_of_ok ended).mp prefills
  · exact absurd stops (countable c)

/-- An engine whose tokenizer fails at one token in a way that stops a step. -/
def brittleEngine : Engine :=
  { tinyEngine with
    tokenizer := .table (fun token => if token = 5 then none else some "x") none
      fun _ => .sequenceNotFound 0 }

/-- Calls one of which is a step that is interrupted after it preempted a request. That request
waits in front of three new ones in the end, the second of which is longer than the others. -/
def interruptedCalls : List Call :=
  [.submit ((tinySubmission "a").withSettings { GenerationSettings.usual with
      stopTexts := ["y"] }),
    .submit (tinySubmission "b"), .submit (tinySubmission "c"), .step, .step, .abort "a",
    .abort "b", .step, .submit (tinySubmission "d"),
    .submit ⟨some "e", [.tokens [1, 2, 3, 4, 5]], .usual⟩, .submit (tinySubmission "f")]

/-- The two in front are taken in. The next one does not fit, and the last one, which would, waits
behind it. -/
theorem takes_in_most_interrupted : ∃ answers engine c,
    brittleEngine.Opens tinyCaches brittleEngine.tokenizer tinyPremises.settings ∧
      brittleEngine.serve interruptedCalls = some (answers, engine) ∧
      answers[4]? = some (.refused (.sequenceNotFound 0)) ∧
      engine.cluster.scheduler.waiting = ["c", "d", "e", "f"] ∧
      engine.cluster.replayLength "c" = 5 ∧ engine.cluster.FitsTogether 8 ["c", "d", "f"] ∧
      Cluster.admitFitting 8 engine.cluster = .ok ["c", "d"] c ∧
      engine.cluster.TakesIn 8 ["c", "d"] c := by
  have ran : (do
      let served ← brittleEngine.serve interruptedCalls
      let engine := served.2
      let admitted ← completed (Cluster.admitFitting 8) engine.cluster
      return decide (served.1[4]? = some (.refused (.sequenceNotFound 0))) &&
        decide (engine.cluster.scheduler.waiting = ["c", "d", "e", "f"]) &&
        decide (engine.cluster.replayLength "c" = 5) &&
        decide (engine.cluster.FitsTogether 8 ["c", "d", "f"]) &&
        decide (admitted.1 = ["c", "d"])) = some true := by
    decide +kernel
  simp only [Option.bind_eq_bind, Option.bind_eq_some_iff, Option.pure_def, Option.some.injEq,
    Bool.and_eq_true, decide_eq_true_eq] at ran
  obtain ⟨⟨answers, engine⟩, served, ⟨front, c⟩, taken,
    ⟨⟨⟨refused, queue⟩, length⟩, fits⟩, rfl⟩ := ran
  dsimp only at *
  have opens : brittleEngine.Opens tinyCaches brittleEngine.tokenizer tinyPremises.settings :=
    ⟨brittleEngine, rfl, Or.inl rfl⟩
  have fresh : ∀ cache ∈ tinyCaches, cache.IsFresh := by
    simp [tinyCaches, PagedCache.IsFresh, PagedCache.ofSize, BlockPool.ofSize]
  have divided : ∀ cache ∈ tinyCaches, 0 < cache.pool.blockSize := by decide
  have admits := completed_eq_some.mp taken
  obtain ⟨front, d, run, takes, _⟩ := takes_in_most fresh divided opens served fun d stops => by
    cases admits.symm.trans stops
  cases admits.symm.trans run
  exact ⟨answers, engine, c, opens, served, refused, queue, length, fits, admits, takes⟩

end Engine

end ContinuousBatching
