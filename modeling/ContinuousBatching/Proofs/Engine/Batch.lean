/-
**The batch of a step.**

A step feeds one batch: the requests that it admits, or else the running ones that were not given
up. Admission and room-making promise that the batch fits, and feeding keeps that promise, so the
batch is always fed (`Cluster.Grown`), unless the step is turned down before it changes anything:

* `Cluster.Jams` says in terms of the program when that is, `Cluster.Jammed` in terms of blocks;
* `feedBatch_meets`: a batch is fed exactly if the cluster is not jammed;
* `turn_meets`: admission and feeding together, which are the first half of a step;
* `feedBatch_rule`, `step_rule`: on any cluster, what has to be known of the parts.
-/

import ContinuousBatching.Proofs.Engine.Admission
import ContinuousBatching.Proofs.Engine.Feeding
import ContinuousBatching.Proofs.Engine.Room

namespace ContinuousBatching.Cluster

variable {p : Premises} {c d e : Cluster} {caches caches' : List PagedCache}
  {batch admitted : List RequestId} {ready : Lane → Prop}

/-- Every lane of the batch has one token more than was reported, and nobody else has. The batch is
only empty if somebody runs who was given up. -/
structure Grown (p : Premises) (c : Cluster) (batch : List RequestId) (d : Cluster)
    (caches : List PagedCache) : Prop where
  live : d.Live p caches
  silent : c.Silent d
  runs : ∀ id ∈ batch, id ∈ d.scheduler.running
  nodup : batch.Nodup
  level : ∀ id ticket, d.scheduler.tickets.get? id = some ticket →
    ∀ lane ∈ ticket.lanes,
      lane.committed.length = ticket.reported + if id ∈ batch then 1 else 0
  drained : ∀ id ticket, d.scheduler.tickets.get? id = some ticket →
    id ∈ d.scheduler.running → ∀ lane ∈ ticket.lanes, lane.Drained
  wanted : ∀ id ∈ c.scheduler.tickets.keys, id ∉ d.scheduler.running →
    c.scheduler.givenUp id = false
  busy : batch = [] → ∃ id ∈ d.scheduler.running, c.scheduler.givenUp id = true

/-- Nothing can be fed: nobody is admitted, and nobody runs or somebody starves. -/
def Jammed (slots : Nat) (c : Cluster) (caches : List PagedCache) : Prop :=
  c.Closed slots caches ∧ (c.scheduler.running = [] ∨ c.Starved caches)

/-- The program finds nobody to admit, and nobody who runs or one request at most that cannot be
fed. -/
def Jams (slots : Nat) (c : Cluster) : Prop :=
  admitFitting slots c = .ok [] c ∧
    (c.scheduler.running = [] ∨ ∃ batch, c.scheduler.decodable = .ok batch ∧ batch.length ≤ 1 ∧
      c.decodeFits batch = .ok false)

/-- A request that waits at rest was not given up. -/
theorem AtRest.givenUp_of_idle (rest : c.AtRest p caches) {id : RequestId}
    (known : id ∈ c.scheduler.tickets.keys) (idle : id ∉ c.scheduler.running) :
    c.scheduler.givenUp id = false := by
  obtain ⟨ticket, found⟩ := Registry.mem_keys_iff.mp known
  rw [Scheduler.givenUp_of_found found]
  exact (rest.settled id ticket found).wanted idle

theorem Grown.ofFeeding (feeding : Feeding p d ready batch e caches fun _ => [])
    (silent : c.Silent d)
    (wanted : ∀ id ∈ c.scheduler.tickets.keys, id ∉ d.scheduler.running →
      c.scheduler.givenUp id = false)
    (busy : batch = [] → ∃ id ∈ d.scheduler.running, c.scheduler.givenUp id = true) :
    c.Grown p batch e caches where
  live := feeding.live
  silent := silent.trans feeding.silent
  runs := fun id member => feeding.running ▸ feeding.runs id member
  nodup := feeding.nodup
  level := fun id ticket found lane member => by
    obtain ⟨place, there⟩ := List.mem_iff_getElem?.mp member
    have level := feeding.level id ticket place lane found there
    simpa only [List.not_mem_nil, not_false_iff, and_true] using level
  drained := fun id ticket found runs lane member => by
    obtain ⟨place, there⟩ := List.mem_iff_getElem?.mp member
    exact feeding.drained id ticket place lane found there runs List.not_mem_nil
  wanted := fun id known idle => wanted id known fun runs => idle (feeding.running ▸ runs)
  busy := fun none => feeding.running ▸ busy none

/-- **A prefill.** Everybody admitted is fed the whole input. -/
theorem Admitted.prefill_meets (rest : c.AtRest p caches)
    (result : c.Admitted p caches admitted d caches') (filled : admitted ≠ []) :
    Meets (admitted.forM prefillOne) d (fun _ e => ∃ caches'', c.Grown p admitted e caches'')
      (fun stop _ => Overflows c.demand stop) := by
  have live := result.live
  have consistent := live.consistent
  have queue := rest.live.consistent.nodup
  rw [result.waiting] at queue
  have idle : ∀ id ∈ admitted, id ∉ c.scheduler.running := fun id member runs =>
    (List.nodup_append.mp queue).2.2 id runs id (List.mem_append_left _ member) rfl
  have runs : ∀ id ∈ admitted, id ∈ d.scheduler.running := fun id member => by
    rw [result.running]
    exact List.mem_append_right _ member
  have feeding : Feeding p d (fun lane => lane.pending ≠ []) admitted d caches'
      fun _ => admitted := by
    refine .start live (List.nodup_append.mp (List.nodup_append.mp queue).2.1).1 runs result.level
      (fun id member ticket found lane there => ?_) (fun id ticket found running absent => ?_)
      fun place cache there => ?_
    · have primed := result.primed id ticket found (idle id member) lane there
      exact primed.pending_ne_nil (live.stands id ticket found).asked
    · rw [result.running] at running
      exact result.drained id ticket found ((List.mem_append.mp running).resolve_right absent)
    · -- a request that is fed everything takes the blocks that were reserved for it
      have wants : ∀ id ∈ admitted, d.want place cache id =
          c.extent id ⌈/⌉ cache.pool.blockSize := fun id member => by
        obtain ⟨ticket, found⟩ := consistent.found_of_running (runs id member)
        obtain ⟨lane, lane_at⟩ := live.lane_at found there
        have primed := result.primed id ticket found (idle id member) lane (Ticket.lane_mem lane_at)
        rw [live.want_of_primed (runs id member) found lane_at there primed,
          result.level id ticket found lane (Ticket.lane_mem lane_at), ← result.silent.extent,
          extent_of_found found]
      rw [sum_map_congr wants]
      exact result.enough cache (List.mem_of_getElem? there)
  refine (prefillAll_meets feeding).mono ?_ fun _ _ large => result.silent.demand ▸ large
  rintro _ e ⟨caches'', fed⟩
  refine ⟨caches'', .ofFeeding fed result.silent (fun id known idle => ?_)
    fun none => absurd none filled⟩
  refine rest.givenUp_of_idle known fun runs => idle ?_
  rw [result.running]
  exact List.mem_append_left _ runs

/-- **A decode.** Everybody spared is fed the last token. -/
theorem Roomy.decode_meets {preempted : List RequestId} (rest : c.AtRest p caches)
    (roomy : c.Roomy p caches preempted d caches') (some : c.scheduler.running ≠ []) :
    Meets (d.scheduler.spared.forM decodeOne) d
      (fun _ e => ∃ caches'', c.Grown p d.scheduler.spared e caches'')
      (fun stop _ => Overflows c.demand stop) := by
  have runs : ∀ id ∈ d.scheduler.spared, id ∈ d.scheduler.running := fun id member =>
    List.mem_of_mem_filter member
  have feeding : Feeding p d Lane.Drained d.scheduler.spared d caches'
      fun _ => d.scheduler.spared :=
    .start roomy.live (roomy.live.consistent.nodup_running.sublist List.filter_sublist) runs
      roomy.level (fun id member ticket found => roomy.drained id ticket found (runs id member))
      (fun id ticket found running _ => roomy.drained id ticket found running) roomy.fits
  refine (decodeAll_meets feeding).mono ?_ fun _ _ large => roomy.silent.demand ▸ large
  rintro _ e ⟨caches'', fed⟩
  refine ⟨caches'', .ofFeeding fed roomy.silent (fun id known idle => ?_) fun none => ?_⟩
  · by_cases runs : id ∈ c.scheduler.running
    · exact roomy.left id runs idle
    · exact rest.givenUp_of_idle known runs
  · obtain ⟨id, runs⟩ := List.exists_mem_of_ne_nil _ some
    have given := roomy.givenUp_of_none none runs
    refine ⟨id, ?_, given⟩
    by_contra gone
    rw [roomy.left id runs gone] at given
    cases given

/-- **Feeding a batch, part by part.** Those who were admitted are fed their input. If there are
none, then somebody has to run: room is made, and those who can go on are fed their last token. -/
theorem feedBatch_rule {done : StepReport → Cluster → Prop} {stopped : Stop → Cluster → Prop}
    (prefills : admitted ≠ [] → Meets (admitted.forM prefillOne) c
      (fun _ => done ⟨.prefill, admitted, [], []⟩) stopped)
    (jams : admitted = [] → c.scheduler.running = [] → stopped (.refused .outOfBlocks) c)
    (decodes : admitted = [] → c.scheduler.running ≠ [] →
      Meets (makeRoom c.scheduler.running.length) c
        (fun preempted d => Yields d.scheduler.decodable
          (fun scheduled => Meets (scheduled.forM decodeOne) d
            (fun _ => done ⟨.decode, scheduled, preempted, []⟩) stopped)
          (fun stop => stopped stop d))
        stopped) :
    Meets (feedBatch admitted) c done stopped := by
  unfold feedBatch
  by_cases none : admitted = []
  · rw [if_neg (by simp [none]), meets_bind, meets_get]
    dsimp only
    by_cases idle : c.scheduler.running = []
    · rw [if_pos (List.isEmpty_iff.mpr idle)]
      exact jams none idle
    · rw [if_neg (fun empty => idle (List.isEmpty_iff.mp empty)), meets_bind]
      refine (decodes none idle).mono ?_ (fun _ _ stop => stop)
      intro preempted d others
      rw [meets_bind, meets_get, meets_bind, meets_liftM]
      refine others.mono (fun scheduled fed => ?_) (fun _ stop => stop)
      rw [meets_bind]
      exact fed
  · have filled : (!admitted.isEmpty) = true := by
      rwa [Bool.not_eq_true', List.isEmpty_eq_false_iff]
    rw [if_pos filled, meets_bind]
    exact prefills none

/-- **Feeding the batch of a step.** -/
theorem feedBatch_meets (rest : c.AtRest p caches)
    (result : c.Admitted p caches admitted d caches')
    (run : admitFitting p.settings.maxRunning c = .ok admitted d) :
    Meets (feedBatch admitted) d
      (fun report e => ¬ c.Jammed p.settings.maxRunning caches ∧
        ∃ caches'', c.Grown p report.scheduled e caches'')
      (fun stop e => Overflows c.demand stop ∨
        (stop = .refused .outOfBlocks ∧ e = c ∧ c.Jammed p.settings.maxRunning caches ∧
          c.Jams p.settings.maxRunning)) := by
  refine feedBatch_rule (fun some => ?_) (fun none idle => ?_) fun none busy => ?_
  · refine (result.prefill_meets rest some).mono ?_ (fun _ _ large => Or.inl large)
    intro _ e grown
    exact ⟨fun jammed => result.opened some jammed.1, grown⟩
  · subst none
    obtain ⟨rfl, rfl⟩ := result.unchanged rfl
    exact Or.inr ⟨rfl, rfl, ⟨result.closed rfl, Or.inl idle⟩, run, Or.inl idle⟩
  · subst none
    obtain ⟨rfl, rfl⟩ := result.unchanged rfl
    refine (makeRoom_meets rest).mono ?_ ?_
    · rintro preempted e ⟨caches'', roomy⟩
      rw [roomy.decodable_eq, yields_ok]
      refine (roomy.decode_meets rest busy).mono ?_ (fun _ _ large => Or.inl large)
      intro _ e' grown
      refine ⟨fun jammed => jammed.2.elim busy ?_, grown⟩
      exact roomy.not_starved roomy.fits
    · rintro _ _ (large | ⟨rfl, same, starved, asked⟩)
      · exact Or.inl large
      · have few : d.scheduler.spared.length ≤ 1 := by
          obtain ⟨id, lone, _⟩ := starved
          rw [lone]
          exact Nat.le_refl 1
        exact Or.inr ⟨rfl, same, ⟨result.closed rfl, Or.inr starved⟩, run, Or.inr
          ⟨_, Scheduler.decodable_eq rest.live.consistent, few, asked⟩⟩

/-! ### The first half of a step -/

/-- Admits requests and feeds the batch. -/
def turn (slots : Nat) : Action Cluster StepReport := do
  let admitted ← admitFitting slots
  feedBatch admitted

/-- The cluster in the middle of its next step, when the batch was fed. -/
def fed (slots : Nat) (c : Cluster) : Cluster :=
  match turn slots c with
  | .ok _ d => d
  | .error _ _ => c

theorem fed_of_turn {slots : Nat} {report : StepReport} (run : turn slots c = .ok report d) :
    c.fed slots = d := by
  rw [fed, run]

/-- A step is its first half and what comes after. -/
theorem meets_turn {slots : Nat} {α : Type} {second : StepReport → Action Cluster α}
    {done : α → Cluster → Prop} {stopped : Stop → Cluster → Prop} :
    Meets (admitFitting slots >>= fun admitted => feedBatch admitted >>= second) c done stopped ↔
      Meets (turn slots) c (fun report d => Meets (second report) d done stopped) stopped := by
  unfold turn
  simp only [meets_bind]

/-- **A step, part by part.** If there is any request, the first half of the step is followed by the
reports of those whom it fed or who were given up, and those who finish are written down. -/
theorem step_rule {tokenizer : Tokenizer} {settings : EngineSettings}
    {done : StepReport → Cluster → Prop} {stopped : Stop → Cluster → Prop}
    (idles : c.scheduler.hasPending = false → done .idle c)
    (turns : c.scheduler.hasPending = true → Meets (turn settings.maxRunning) c
      (fun first d => Yields (d.reporters first.scheduled)
        (fun ids => Meets (process ids tokenizer settings.maxLength) d
          (fun finished e => Meets (finished.forM fun id => record id .finished) e
            (fun _ => done { first with finished := finished }) stopped)
          stopped)
        (fun stop => stopped stop d))
      stopped) :
    Meets (step tokenizer settings) c done stopped := by
  unfold step
  rw [meets_bind, meets_get]
  cases pending : c.scheduler.hasPending with
  | false => exact idles pending
  | true =>
      rw [if_pos rfl, meets_turn]
      refine (turns pending).mono (fun first d others => ?_) (fun _ _ stop => stop)
      rw [meets_bind, meets_get, meets_bind, meets_liftM]
      refine others.mono (fun ids processed => ?_) (fun _ stop => stop)
      rw [meets_bind]
      refine processed.mono (fun finished e recorded => ?_) (fun _ _ stop => stop)
      rw [meets_bind]
      exact recorded

/-- **The first half of a step.** -/
theorem turn_meets (rest : c.AtRest p caches) :
    Meets (turn p.settings.maxRunning) c
      (fun report d => ¬ c.Jammed p.settings.maxRunning caches ∧
        ∃ caches', c.Grown p report.scheduled d caches')
      (fun stop d => Overflows c.demand stop ∨
        (stop = .refused .outOfBlocks ∧ d = c ∧ c.Jammed p.settings.maxRunning caches ∧
          c.Jams p.settings.maxRunning)) := by
  unfold turn
  rw [meets_bind]
  refine (admitFitting_meets rest).with_run.mono ?_ (fun _ _ large => Or.inl large)
  rintro admitted d ⟨⟨caches', result⟩, run⟩
  exact feedBatch_meets rest result run

/-- Nothing is reported in the first half of a step. -/
theorem AtRest.fed_silent (rest : c.AtRest p caches) : c.Silent (c.fed p.settings.maxRunning) := by
  rcases (turn_meets rest).ends with ⟨report, d, run, _, _, grown⟩ | ⟨stop, d, run, _⟩
  · rw [fed_of_turn run]
    exact grown.silent
  · rw [fed, run]
    exact .refl c

end ContinuousBatching.Cluster
