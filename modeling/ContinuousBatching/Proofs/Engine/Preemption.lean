/-
**Preemption gives up as little as it can.**

When a step decodes, the running requests that nobody gave up are to go on, one position each. If
the blocks do not suffice for all of them, the last ones make room, and what they release counts as
free. The longest part at the front that can go on in this way does go on:

* `Cluster.FitsBeside`: some requests can go on once the blocks of others are free;
* `Cluster.Sparing`: who was preempted so far, and that no longer part could have been kept;
* `Cluster.Sparing.fits_iff`: the test of the loop is the one on the cluster before it;
* `Cluster.makeRoom_least`: making room keeps the longest part at the front that fits, and is
  refused only if a single request was to go on and does not fit.
-/

import ContinuousBatching.Proofs.Engine.Interruption
import ContinuousBatching.Proofs.Engine.Journal

namespace ContinuousBatching

/-- The number of blocks that a sequence has in a cache. -/
def PagedCache.blocksOf (cache : PagedCache) (sequence : SequenceId) : Nat :=
  ((cache.sequences.get? sequence).map fun written => written.table.blocks.length).getD 0

namespace Cluster

/-- The number of blocks that a request lacks in a cache for one position more. -/
def lacksIn (c : Cluster) (cache : PagedCache) (id : RequestId) : Nat :=
  ((c.scheduler.sequenceOf? id).map cache.lacksOne).getD 0

/-- The number of blocks that a request has in a cache. -/
def hasIn (c : Cluster) (cache : PagedCache) (id : RequestId) : Nat :=
  ((c.scheduler.sequenceOf? id).map cache.blocksOf).getD 0

/-- In every cache, the requests at the front can go on by one position each once the blocks of
those at the back are free. -/
def FitsBeside (c : Cluster) (front back : List RequestId) : Prop :=
  ∀ cache ∈ c.caches,
    (front.map (c.lacksIn cache)).sum ≤ cache.pool.freeCount + (back.map (c.hasIn cache)).sum

instance {c : Cluster} {front back : List RequestId} : Decidable (c.FitsBeside front back) :=
  inferInstanceAs (Decidable (∀ cache ∈ c.caches, _ ≤ _))

/-- The requests at the back were preempted, the last one first, and those at the front remain. No
longer part at the front could have been kept. -/
structure Sparing (p : Premises) (c : Cluster) (caches : List PagedCache)
    (front back : List RequestId) (d : Cluster) (caches' : List PagedCache) : Prop
    extends c.Preempting p caches back.reverse d caches' where
  parts : c.scheduler.spared = front ++ back
  order : d.scheduler.running = c.scheduler.running.filter fun id => id ∉ back
  queue : d.scheduler.waiting = back ++ c.scheduler.waiting
  tickets : ∀ id ∈ d.scheduler.running, d.scheduler.tickets.get? id = c.scheduler.tickets.get? id
  placed : caches'.length = caches.length
  released : ∀ (place : Nat) (cache' : PagedCache), caches'[place]? = some cache' →
    ∃ cache, caches[place]? = some cache ∧
      cache'.pool.freeCount = cache.pool.freeCount + (back.map (c.hasIn cache)).sum ∧
      ∀ id ∈ d.scheduler.running, ∀ sequence, c.scheduler.sequenceOf? id = some sequence →
        cache'.sequences.get? sequence = cache.sequences.get? sequence
  least : ∀ more others, c.scheduler.spared = more ++ others → front.length < more.length →
    ¬ c.FitsBeside more others

variable {p : Premises} {c d : Cluster} {caches caches' : List PagedCache} {id : RequestId}
  {ticket : Ticket} {front back : List RequestId}

theorem lacksIn_of_found {cache : PagedCache} {sequence : SequenceId}
    (held : c.scheduler.sequenceOf? id = some sequence) :
    c.lacksIn cache id = cache.lacksOne sequence := by
  simp [lacksIn, held]

theorem hasIn_of_found {cache : PagedCache} {sequence : SequenceId} {written : PagedSequence}
    (held : c.scheduler.sequenceOf? id = some sequence)
    (there : cache.sequences.get? sequence = some written) :
    c.hasIn cache id = written.table.blocks.length := by
  simp [hasIn, PagedCache.blocksOf, held, there]

namespace Sparing

/-- Before anybody is preempted. -/
theorem start (rest : c.AtRest p caches) : c.Sparing p caches c.scheduler.spared [] c caches where
  toPreempting := .start rest
  parts := (List.append_nil _).symm
  order := by simp
  queue := rfl
  tickets := fun _ _ => rfl
  placed := rfl
  released := fun place cache there => ⟨cache, there, rfl, fun _ _ _ _ => rfl⟩
  least := fun more others parts longer => by
    rw [parts, List.length_append] at longer
    omega

/-- Nobody is spared twice. -/
theorem nodup (rest : c.AtRest p caches) (sparing : c.Sparing p caches front back d caches') :
    (front ++ back).Nodup := by
  rw [← sparing.parts]
  exact rest.live.consistent.nodup_running.filter _

/-- Those that remain are those at the front. -/
theorem spared_eq (rest : c.AtRest p caches) (sparing : c.Sparing p caches front back d caches') :
    d.scheduler.spared = front := by
  obtain ⟨_, _, apart⟩ := List.nodup_append.mp (sparing.nodup rest)
  have swap : d.scheduler.spared = c.scheduler.spared.filter fun id => id ∉ back := by
    rw [Scheduler.spared, Scheduler.spared, sparing.order, sparing.silent.givenUp, List.filter_comm]
  have left : front.filter (fun id => id ∉ back) = front := by
    refine List.filter_eq_self.mpr fun id member => ?_
    simpa using fun there => apart id member id there rfl
  have gone : back.filter (fun id => id ∉ back) = [] := by
    simp
  rw [swap, sparing.parts, List.filter_append, left, gone, List.append_nil]

theorem runs (rest : c.AtRest p caches) (sparing : c.Sparing p caches front back d caches')
    (member : id ∈ front) : id ∈ d.scheduler.running := by
  rw [← sparing.spared_eq rest] at member
  exact List.mem_of_mem_filter member

theorem sequenceOf?_eq (sparing : c.Sparing p caches front back d caches')
    (runs : id ∈ d.scheduler.running) :
    d.scheduler.sequenceOf? id = c.scheduler.sequenceOf? id := by
  unfold Scheduler.sequenceOf?
  rw [sparing.tickets id runs]

/-- What a request lacks now is what it lacked before. -/
theorem want_eq_lacksIn (sparing : c.Sparing p caches front back d caches')
    (runs : id ∈ d.scheduler.running) {place : Nat} {cache cache' : PagedCache}
    (there : caches'[place]? = some cache')
    (same : ∀ sequence, c.scheduler.sequenceOf? id = some sequence →
      cache'.sequences.get? sequence = cache.sequences.get? sequence) :
    d.want place cache' id = c.lacksIn cache id := by
  obtain ⟨sequence, written, held, found, _, lacks⟩ := sparing.toDecoding.lacksOne_eq runs there
  rw [sparing.sequenceOf?_eq runs] at held
  have before := same sequence held
  rw [found] at before
  rw [← lacks, lacksIn_of_found held, PagedCache.lacksOne_of_found found,
    PagedCache.lacksOne_of_found before.symm]

/-- **The test of the loop** is whether those at the front fit beside those at the back. -/
theorem fits_iff (rest : c.AtRest p caches) (sparing : c.Sparing p caches front back d caches') :
    (∀ place cache, caches'[place]? = some cache →
      (d.scheduler.spared.map (d.want place cache)).sum ≤ cache.pool.freeCount) ↔
      c.FitsBeside front back := by
  rw [sparing.spared_eq rest, FitsBeside, rest.live.owned.caches_eq]
  have each : ∀ place cache cache', caches'[place]? = some cache' →
      (∀ id ∈ d.scheduler.running, ∀ sequence, c.scheduler.sequenceOf? id = some sequence →
        cache'.sequences.get? sequence = cache.sequences.get? sequence) →
      (front.map (d.want place cache')).sum = (front.map (c.lacksIn cache)).sum := by
    intro place cache cache' there same
    refine sum_map_congr fun id member => ?_
    have runs := sparing.runs rest member
    exact sparing.want_eq_lacksIn runs there (same id runs)
  constructor
  · intro fits cache member
    obtain ⟨place, there⟩ := List.mem_iff_getElem?.mp member
    have bound := (List.getElem?_eq_some_iff.mp there).1
    rw [← sparing.placed] at bound
    have there' : caches'[place]? = some caches'[place] := List.getElem?_eq_getElem bound
    obtain ⟨before, found, free, same⟩ := sparing.released place _ there'
    cases there.symm.trans found
    rw [← each place cache _ there' same, ← free]
    exact fits place _ there'
  · intro fits place cache' there'
    obtain ⟨cache, there, free, same⟩ := sparing.released place cache' there'
    rw [each place cache cache' there' same, free]
    exact fits cache (List.mem_of_getElem? there)

/-- A longer part at the front was tested before, or just now. -/
theorem least_step {victim : RequestId}
    (sparing : c.Sparing p caches (front ++ [victim]) back d caches')
    (short : ¬ c.FitsBeside (front ++ [victim]) back) {more others : List RequestId}
    (parts : c.scheduler.spared = more ++ others) (longer : front.length < more.length) :
    ¬ c.FitsBeside more others := by
  by_cases further : (front ++ [victim]).length < more.length
  · exact sparing.least more others parts further
  · have length : (front ++ [victim]).length = more.length := by
      rw [List.length_append, List.length_singleton] at further ⊢
      omega
    obtain ⟨rfl, rfl⟩ := List.append_inj (sparing.parts.symm.trans parts) length
    exact short

/-- What is released when one request more has left, and that the others keep what they have. -/
theorem released_step (sparing : c.Sparing p caches front back d caches') {victim : RequestId}
    (runs : victim ∈ d.scheduler.running) {sequence : SequenceId}
    (held : d.scheduler.sequenceOf? victim = some sequence) {place : Nat} {after : PagedCache}
    (there : (caches'.map fun cache => cache.without sequence)[place]? = some after) :
    ∃ cache, caches[place]? = some cache ∧
      after.pool.freeCount = cache.pool.freeCount + ((victim :: back).map (c.hasIn cache)).sum ∧
      ∀ id ∈ d.scheduler.running.erase victim, ∀ sequence',
        c.scheduler.sequenceOf? id = some sequence' →
          after.sequences.get? sequence' = cache.sequences.get? sequence' := by
  have consistent := sparing.live.consistent
  have held' : c.scheduler.sequenceOf? victim = some sequence :=
    (sparing.sequenceOf?_eq runs).symm.trans held
  rw [List.getElem?_map] at there
  obtain ⟨cache', there', rfl⟩ := Option.map_eq_some_iff.mp there
  obtain ⟨cache, cache_at, free, same⟩ := sparing.released place cache' there'
  have stored := List.mem_of_getElem? there'
  obtain ⟨written, known⟩ := sparing.live.owned.found_of_running runs held cache' stored
  have before := same victim runs sequence held'
  rw [known] at before
  refine ⟨cache, cache_at, ?_, ?_⟩
  · rw [PagedCache.freeCount_without (sparing.live.owned.sound cache' stored) known, free,
      List.map_cons, List.sum_cons, hasIn_of_found held' before.symm]
    omega
  · intro other left sequence' owned
    obtain ⟨differ, left⟩ := consistent.nodup_running.mem_erase_iff.mp left
    have apart : sequence' ≠ sequence := by
      intro equal
      rw [equal, ← sparing.sequenceOf?_eq left] at owned
      exact differ (consistent.owner other victim sequence owned held)
    rw [PagedCache.get?_without, if_neg apart]
    exact same other left sequence' owned

/-- **One preemption**, after a test that failed. The last of several requests at the front joins
those at the back. -/
theorem preempt_meets (rest : c.AtRest p caches) {victim : RequestId}
    (sparing : c.Sparing p caches (front ++ [victim]) back d caches') (crowd : front ≠ [])
    (short : ¬ c.FitsBeside (front ++ [victim]) back) :
    Meets (preempt victim) d
      (fun _ e => ∃ caches'', c.Sparing p caches front (victim :: back) e caches'')
      (fun _ _ => False) := by
  have consistent := sparing.live.consistent
  have runs : victim ∈ d.scheduler.running := sparing.runs rest (by simp)
  obtain ⟨ticket, found⟩ := consistent.found_of_running runs
  have spared := sparing.spared_eq rest
  have member : victim ∈ d.scheduler.spared := by
    rw [spared]
    simp
  have several : 1 < d.scheduler.spared.length := by
    have somebody := List.length_pos_iff.mpr crowd
    rw [spared, List.length_append, List.length_singleton]
    omega
  refine ((sparing.toPreempting.preempt_meets member several).and
    (sparing.toDecoding.preempt_meets runs found)).mono ?_ (fun _ _ both => both.1)
  rintro _ _ ⟨⟨_, caches'', preempting⟩, sequence, attached, rfl, decoding, _⟩
  -- the caches of a cluster are determined by it
  have same : caches'' = caches'.map fun cache => cache.without sequence :=
    preempting.live.owned.caches_eq.symm.trans decoding.live.owned.caches_eq
  subst same
  rw [← List.reverse_cons] at preempting
  have held : d.scheduler.sequenceOf? victim = some sequence :=
    (Scheduler.sequenceOf?_of_found found).trans attached
  refine ⟨_, ⟨preempting, ?_, ?_, ?_, ?_, ?_, ?_, ?_⟩⟩
  · rw [sparing.parts, List.append_assoc]
    rfl
  · show d.scheduler.running.erase victim = _
    rw [consistent.nodup_running.erase_eq_filter, sparing.order, List.filter_filter]
    refine List.filter_congr fun other _ => ?_
    by_cases here : other = victim <;> simp [here]
  · show victim :: d.scheduler.waiting = _
    rw [sparing.queue]
    rfl
  · intro other left
    obtain ⟨differ, left⟩ := consistent.nodup_running.mem_erase_iff.mp left
    show (d.scheduler.tickets.insert victim ticket.rewound).get? other = _
    rw [Registry.get?_insert, if_neg differ]
    exact sparing.tickets other left
  · rw [List.length_map, sparing.placed]
  · exact fun place after there => sparing.released_step runs held there
  · exact fun more others parts longer => sparing.least_step short parts longer

/-- A test that fails for a single request means that nobody was preempted before. -/
theorem lone (sparing : c.Sparing p caches front back d caches')
    (few : d.scheduler.spared.length ≤ 1)
    (short : ¬ ∀ place cache, caches'[place]? = some cache →
      (d.scheduler.spared.map (d.want place cache)).sum ≤ cache.pool.freeCount) :
    back = [] ∧ d = c := by
  have first := (sparing.toPreempting.starved few short).1
  exact ⟨List.reverse_eq_nil_iff.mp first, (sparing.unchanged first).1⟩

end Sparing

/-- The requests at the front fit beside those at the back, and no longer part at the front does. It
is empty only if nobody is to go on. -/
structure KeepsMost (c : Cluster) (front back : List RequestId) : Prop where
  parts : c.scheduler.spared = front ++ back
  fits : c.FitsBeside front back
  least : ∀ more others, c.scheduler.spared = more ++ others → front.length < more.length →
    ¬ c.FitsBeside more others
  somebody : front = [] → c.scheduler.spared = []

/-- Somebody can go on, or nobody is to. -/
def CanGoOn (c : Cluster) : Prop :=
  c.scheduler.spared = [] ∨
    ∃ front back, c.scheduler.spared = front ++ back ∧ front ≠ [] ∧ c.FitsBeside front back

theorem KeepsMost.canGoOn (keeps : c.KeepsMost front back) : c.CanGoOn := by
  by_cases nobody : front = []
  · exact Or.inl (keeps.somebody nobody)
  · exact Or.inr ⟨front, back, keeps.parts, nobody, keeps.fits⟩

/-- A single request that does not fit alone cannot go on. -/
theorem not_canGoOn (lone : c.scheduler.spared = front) (few : front.length ≤ 1)
    (short : ¬ c.FitsBeside front []) : ¬ c.CanGoOn := by
  rintro (nobody | ⟨some, others, parts, somebody, fits⟩)
  · rw [← lone, nobody] at short
    exact short fun _ _ => Nat.zero_le _
  · have length := congrArg List.length (lone.symm.trans parts)
    have positive := List.length_pos_iff.mpr somebody
    rw [List.length_append] at length
    have none : others = [] := List.eq_nil_of_length_eq_zero (by omega)
    rw [none, List.append_nil] at parts
    rw [none, ← parts, lone] at fits
    exact short fits

/-- **Making room** keeps the longest part at the front that fits. It is refused exactly if no part
fits, and then nothing has changed. -/
theorem makeRoom_least (rest : c.AtRest p caches) :
    Meets (makeRoom c.scheduler.running.length) c
      (fun preempted d => ∃ front back caches', preempted = back.reverse ∧ c.KeepsMost front back ∧
        c.Sparing p caches front back d caches' ∧ c.Roomy p caches preempted d caches')
      (fun stop d => Overflows c.demand stop ∨
        (stop = .refused .outOfBlocks ∧ d = c ∧ ¬ c.CanGoOn)) := by
  refine makeRoom_rule
    (fun preempted d => ∃ front back caches', preempted = back.reverse ∧
      (front = [] → c.scheduler.spared = []) ∧ c.Sparing p caches front back d caches')
    (fun preempted d => ∃ front back caches', preempted = back.reverse ∧ c.KeepsMost front back ∧
      c.Sparing p caches front back d caches' ∧ c.Roomy p caches preempted d caches') ?_ ?_
    c.scheduler.running.length [] c ⟨_, [], caches, rfl, fun none => none, .start rest⟩
    (List.length_filter_le ..)
  · rintro preempted d ⟨front, back, caches', _, _, sparing⟩
    exact sparing.toPreempting.decodable_eq
  · rintro _ d ⟨front, back, caches', rfl, somebody, sparing⟩
    refine sparing.toPreempting.decodeFits_yields.mono ?_ (fun _ large => Or.inl large)
    intro answer exact
    have spared := sparing.spared_eq rest
    refine ⟨fun fits => ?_, fun short few => ?_, fun short crowd id chosen => ?_⟩
    · have room := exact.mp fits
      refine ⟨front, back, caches', rfl, ⟨sparing.parts, ?_, sparing.least, somebody⟩, sparing,
        ⟨sparing.toPreempting, room⟩⟩
      exact (sparing.fits_iff rest).mp room
    · subst short
      have full := exact.not.mp Bool.false_ne_true
      obtain ⟨rfl, rfl⟩ := sparing.lone few full
      refine Or.inr ⟨rfl, rfl, ?_⟩
      rw [sparing.fits_iff rest] at full
      rw [spared] at few
      exact not_canGoOn (by rw [sparing.parts, List.append_nil]) few full
    · subst short
      have full := exact.not.mp Bool.false_ne_true
      rw [sparing.fits_iff rest] at full
      rw [spared] at crowd
      have last := (Scheduler.victim?_eq _).symm.trans chosen
      rw [spared] at last
      obtain ⟨others, rfl⟩ := List.getLast?_eq_some_iff.mp last
      have several : others ≠ [] := by
        intro none
        rw [none] at crowd
        exact Nat.lt_irrefl 1 crowd
      refine (sparing.preempt_meets rest several full).mono ?_ (fun _ _ => False.elim)
      intro _ e ⟨caches'', later⟩
      refine ⟨?_, others, id :: back, caches'', List.reverse_cons.symm,
        fun none => absurd none several, later⟩
      rw [spared, later.spared_eq rest, List.length_append]
      exact Nat.lt_succ_self _

/-! ### The step -/

/-- After the first half of a step that decodes: the requests at the front were fed, and those at
the back wait in front of all others, in their order. Whoever was given up still runs. -/
structure MakesRoom (c : Cluster) (front back : List RequestId) (d : Cluster) : Prop where
  keeps : c.KeepsMost front back
  running : d.scheduler.running = c.scheduler.running.filter fun id => id ∉ back
  waiting : d.scheduler.waiting = back ++ c.scheduler.waiting
  stays : ∀ id ∈ c.scheduler.running, c.scheduler.givenUp id = true → id ∈ d.scheduler.running

/-- Nobody who was given up is preempted. -/
theorem KeepsMost.not_mem_back (keeps : c.KeepsMost front back)
    (given : c.scheduler.givenUp id = true) : id ∉ back := by
  intro there
  have spared : id ∈ c.scheduler.spared := keeps.parts ▸ List.mem_append_right _ there
  have kept := (List.mem_filter.mp spared).2
  rw [given] at kept
  cases kept

/-- **The first half of a step** that admits nobody. -/
theorem turn_least (rest : c.AtRest p caches)
    (closed : admitFitting p.settings.maxRunning c = .ok [] d) (busy : c.scheduler.running ≠ []) :
    Meets (turn p.settings.maxRunning) c
      (fun report e => ∃ front back, report = ⟨.decode, front, back.reverse, []⟩ ∧
        c.MakesRoom front back e)
      (fun stop e => Overflows c.demand stop ∨
        (stop = .refused .outOfBlocks ∧ e = c ∧ ¬ c.CanGoOn)) := by
  obtain ⟨caches', result⟩ := (meets_iff_of_ok closed).mp (admitFitting_meets rest)
  obtain ⟨rfl, _⟩ := result.unchanged rfl
  unfold turn
  rw [meets_bind, meets_iff_of_ok closed]
  refine feedBatch_rule (fun some => absurd rfl some) (fun _ idle => absurd idle busy)
    fun _ _ => ?_
  refine (makeRoom_least rest).mono ?_ (fun _ _ reason => reason)
  rintro _ e ⟨front, back, caches'', rfl, keeps, sparing, roomy⟩
  rw [roomy.decodable_eq, yields_ok, sparing.spared_eq rest]
  have steady := decodeAll_steady front e
  have fed := roomy.decode_meets rest busy
  rw [sparing.spared_eq rest] at fed
  refine (fed.and steady).mono ?_ (fun _ _ stopped => Or.inl stopped.1)
  rintro _ after ⟨_, steady⟩
  have running := steady.scheduler.running.trans sparing.order
  refine ⟨front, back, rfl, keeps, running, steady.scheduler.waiting.trans sparing.queue, ?_⟩
  intro id runs given
  rw [running]
  exact List.mem_filter.mpr ⟨runs, decide_eq_true (keeps.not_mem_back given)⟩

/-- What a step reports is what its first half did, and who finished. -/
theorem step_of_turn {tokenizer : Tokenizer} {settings : EngineSettings} {first : StepReport}
    (pending : c.scheduler.hasPending = true) (run : turn settings.maxRunning c = .ok first d) :
    Meets (step tokenizer settings) c
      (fun report _ => report = { first with finished := report.finished }) (fun _ _ => True) := by
  refine step_rule (fun idle => absurd (pending.symm.trans idle) Bool.noConfusion) fun _ => ?_
  rw [meets_iff_of_ok run]
  refine (Yields.anyhow _).mono (fun ids _ => ?_) (fun _ _ => trivial)
  refine (Meets.anyhow _ _).mono (fun finished _ _ => ?_) (fun _ _ _ => trivial)
  exact (Meets.anyhow _ _).mono (fun _ _ _ => rfl) (fun _ _ _ => trivial)

/-- A step stops where its first half does. -/
theorem step_of_turn_error {tokenizer : Tokenizer} {settings : EngineSettings} {stop : Stop}
    (pending : c.scheduler.hasPending = true) (run : turn settings.maxRunning c = .error stop d) :
    step tokenizer settings c = .error stop d := by
  refine Meets.stop_eq (step_rule (fun idle => ?_) fun _ => ?_)
  · cases pending.symm.trans idle
  · unfold Meets
    rw [run]
    exact ⟨rfl, rfl⟩

end Cluster

namespace Engine

/-- The next step lets running requests go on: somebody runs, and nobody is admitted. -/
def Decodes (engine : Engine) : Prop :=
  engine.cluster.scheduler.running ≠ [] ∧
    ∃ c, Cluster.admitFitting engine.settings.maxRunning engine.cluster = .ok [] c

/-- A step stops where its first half does. -/
theorem step_of_turn_error {engine : Engine} {stop : Stop} {d : Cluster}
    (pending : engine.cluster.scheduler.hasPending = true)
    (run : Cluster.turn engine.settings.maxRunning engine.cluster = .error stop d) :
    step engine = .error stop { engine with cluster := d } := by
  refine Meets.stop_eq ?_
  unfold step
  rw [meets_bind, meets_get, meets_onCluster]
  unfold Meets
  rw [Cluster.step_of_turn_error pending run]
  exact ⟨rfl, rfl⟩

/-- A step that decodes reports what its first half did; whoever was preempted waits in front. -/
theorem step_of_decode {engine after : Engine} {report : StepReport} {front back : List RequestId}
    {d : Cluster} (tidy : engine.cluster.scheduler.Tidy)
    (pending : engine.cluster.scheduler.hasPending = true)
    (run : Cluster.turn engine.settings.maxRunning engine.cluster =
      .ok ⟨.decode, front, back.reverse, []⟩ d)
    (ended : step engine = .ok report after) :
    report = ⟨.decode, front, back.reverse, report.finished⟩ ∧
      after.cluster.scheduler.waiting = back ++ engine.cluster.scheduler.waiting := by
  have tells : Meets step engine
      (fun report after => report = ⟨.decode, front, back.reverse, report.finished⟩ ∧
        after.cluster.scheduler.waiting = back ++ engine.cluster.scheduler.waiting)
      (fun _ _ => True) := by
    unfold step
    rw [meets_bind, meets_get, meets_onCluster]
    refine ((Cluster.step_of_turn pending run).and
      (Cluster.step_moves tidy _ _)).mono ?_ (fun _ _ _ => trivial)
    rintro report d ⟨same, moved⟩
    obtain ⟨others, before, later⟩ := moved.waiting
    rw [same] at before later
    replace before : engine.cluster.scheduler.waiting = others := before
    replace later : d.scheduler.waiting = back.reverse.reverse ++ others := later
    refine ⟨same, ?_⟩
    rw [before, ← List.reverse_reverse back]
    exact later
  exact (meets_iff_of_ok ended).mp tells

/-- **Preemption gives up as little as it can.** Take an engine over caches of blocks, with any
tokenizer, that was not interrupted, and a step of it that decodes and in which every count fits 64
bits. If some of the requests at the front can go on once the others release their blocks, or if
nobody is to go on, the longest such part is fed; the others are preempted from the back, and wait
in their order in front of those who waited before. Whoever was given up still runs. Otherwise the
step is refused for want of blocks. -/
theorem preempts_least {caches : List PagedCache} {tokenizer : Tokenizer}
    {settings : EngineSettings} {start engine : Engine} (fresh : ∀ cache ∈ caches, cache.IsFresh)
    (divided : ∀ cache ∈ caches, 0 < cache.pool.blockSize)
    (opens : start.Opens caches tokenizer settings) (proceeds : start.Proceeds engine)
    (decodes : engine.Decodes)
    (countable : ∀ after, step engine ≠ .error (.fault .overflow) after) :
    (engine.cluster.CanGoOn → ∃ front back d,
      Cluster.turn engine.settings.maxRunning engine.cluster =
        .ok ⟨.decode, front, back.reverse, []⟩ d ∧
      engine.cluster.MakesRoom front back d ∧
      ∀ report after, step engine = .ok report after →
        report = ⟨.decode, front, back.reverse, report.finished⟩ ∧
        after.cluster.scheduler.waiting = back ++ engine.cluster.scheduler.waiting) ∧
    (¬ engine.cluster.CanGoOn → step engine = .error (.refused .outOfBlocks) engine) := by
  obtain ⟨p, _, poised⟩ := opens.poised fresh divided
  replace poised := proceeds.poised poised
  obtain ⟨caches', rest⟩ := poised.rest
  obtain ⟨busy, c, closed⟩ := decodes
  have pending : engine.cluster.scheduler.hasPending = true := by
    obtain ⟨id, runs⟩ := List.exists_mem_of_ne_nil _ busy
    have known := (rest.live.consistent.known id).mp (List.mem_append_left _ runs)
    exact Scheduler.hasPending_iff.mpr (List.ne_nil_of_mem known)
  rw [poised.settings] at closed
  have half := Cluster.turn_least rest closed busy
  rw [← poised.settings] at half
  rcases half.ends with ⟨report, d, run, front, back, rfl, room⟩ |
    ⟨stop, d, run, ⟨rfl, _⟩ | ⟨rfl, rfl, stuck⟩⟩
  · refine ⟨fun _ => ⟨front, back, d, run, room, fun report after ended => ?_⟩,
      fun stuck => absurd room.keeps.canGoOn stuck⟩
    exact step_of_decode rest.live.consistent.tidy pending run ended
  · exact absurd (step_of_turn_error pending run) (countable _)
  · exact ⟨fun goesOn => absurd goesOn stuck, fun _ => step_of_turn_error pending run⟩

/-- Calls after which three requests need another block each and one block is free, while the second
of them was given up. -/
def sharedCalls : List Call :=
  [.submit (tinySubmission "a"), .submit (tinySubmission "b"), .submit (tinySubmission "c"), .step,
    .abort "b"]

/-- The last one is preempted, and the first one goes on with what it releases. -/
theorem preempts_least_shared : ∃ engine d,
    tinyEngine.Opens tinyCaches tinyPremises.tokenizer tinyPremises.settings ∧
      tinyEngine.Proceeds engine ∧ engine.Decodes ∧ engine.cluster.CanGoOn ∧
      Cluster.turn engine.settings.maxRunning engine.cluster =
        .ok ⟨.decode, ["a"], ["c"], []⟩ d ∧
      engine.cluster.MakesRoom ["a"] ["c"] d := by
  have ran : (do
      let served ← tinyEngine.serve sharedCalls
      let engine := served.2
      let opened ← completed (Cluster.admitFitting engine.settings.maxRunning) engine.cluster
      let stepped ← completed step engine
      return decide (served.1.take 3 = [.named "a", .named "b", .named "c"]) &&
        decide (served.1.drop 3 = [.stepped ⟨.prefill, ["a", "b", "c"], [], []⟩, .done]) &&
        decide (opened.1 = []) && decide (engine.cluster.scheduler.running ≠ []) &&
        decide (engine.cluster.scheduler.spared = ["a", "c"]) &&
        decide (engine.cluster.FitsBeside ["a"] ["c"]) &&
        decide (stepped.1 = ⟨.decode, ["a"], ["c"], ["b"]⟩)) = some true := by
    decide +kernel
  simp only [Option.bind_eq_bind, Option.bind_eq_some_iff, Option.pure_def, Option.some.injEq,
    Bool.and_eq_true, decide_eq_true_eq] at ran
  obtain ⟨⟨answers, engine⟩, served, ⟨admitted, c⟩, closed, ⟨report, after⟩, stepped,
    ⟨⟨⟨⟨⟨names, told⟩, rfl⟩, busy⟩, spared⟩, fits⟩, rfl⟩ := ran
  dsimp only at *
  have opens : tinyEngine.Opens tinyCaches tinyPremises.tokenizer tinyPremises.settings :=
    ⟨tinyEngine, rfl, Or.inl rfl⟩
  have proceeds : tinyEngine.Proceeds engine := by
    refine Proceeds.start.of_serve served fun cause member => ?_
    rw [← List.take_append_drop 3 answers, names, told] at member
    simp at member
  have decodes : engine.Decodes := ⟨busy, c, completed_eq_some.mp closed⟩
  have step_ok := completed_eq_some.mp stepped
  have goesOn : engine.cluster.CanGoOn := Or.inr ⟨["a"], ["c"], spared, List.cons_ne_nil _ _, fits⟩
  have fresh : ∀ cache ∈ tinyCaches, cache.IsFresh := by
    simp [tinyCaches, PagedCache.IsFresh, PagedCache.ofSize, BlockPool.ofSize]
  have divided : ∀ cache ∈ tinyCaches, 0 < cache.pool.blockSize := by decide
  obtain ⟨front, back, d, run, room, tells⟩ := (preempts_least fresh divided opens proceeds decodes
    (fun after stops => by rw [step_ok] at stops; cases stops)).1 goesOn
  obtain ⟨same, _⟩ := tells _ _ step_ok
  obtain ⟨rfl, reversed⟩ : ["a"] = front ∧ ["c"] = back.reverse := by
    simpa using same
  have rest : back = ["c"] := by
    rw [← List.reverse_reverse back, ← reversed]
    rfl
  subst rest
  exact ⟨engine, d, opens, proceeds, decodes, goesOn, run, room⟩

end Engine

end ContinuousBatching
