/-
**When a step finds no blocks.**

A request fits alone if every cache has the blocks for its input and for all the tokens that it may
generate but the last (`FitsAlone`). If every request fits alone, the front of the waiting queue can
be admitted as soon as nobody runs, and a running request alone can always go on. A step is
nevertheless turned down if the blocks are held by requests that were given up and have not ended
yet (`Cluster.Stalled`): they are neither fed nor preempted, and one request beside them starves.

* `AtRest.extent_le`: the positions that a request takes never exceed its own limit, so that a
  request that fits alone always has its place (`Housed`);
* `Housed.not_closed`, `Housed.givenUp_of_starved`: nobody starves but beside a request given up;
* `Engine.fits_of_served`: the requests that are known are among those submitted;
* `Engine.step_ok_iff_not_stalled`: a step succeeds exactly if the cluster is not stalled.
-/

import ContinuousBatching.Proofs.Engine.Calls

namespace ContinuousBatching

/-- The blocks of every model suffice for the input and all tokens but the last. -/
def FitsAlone (models : List CacheModel) (inputs : List Chunk) (settings : GenerationSettings) :
    Prop :=
  ∀ model ∈ models,
    (positions inputs + max settings.maxTokens 1 - 1) ⌈/⌉ model.blockSize ≤
      model.blockCount

instance (models : List CacheModel) (inputs : List Chunk) (settings : GenerationSettings) :
    Decidable (FitsAlone models inputs settings) :=
  inferInstanceAs (Decidable (∀ model ∈ models, _))

namespace Cluster

variable {p : Premises} {c : Cluster} {caches : List PagedCache} {id : RequestId} {ticket : Ticket}

/-- Nobody can be admitted, and the only running request that was not given up cannot go on. -/
structure Stalled (slots : Nat) (c : Cluster) : Prop where
  closed : c.Closed slots c.caches
  starved : c.Starved c.caches

/-- Every request that is known fits alone. -/
def Fitting (p : Premises) (c : Cluster) : Prop :=
  ∀ id terms, c.terms? id = some terms →
    FitsAlone p.models terms.request.inputs terms.request.settings

/-- **The extent of a request.** Tokens that did not end it are fewer than it may generate. -/
theorem AtRest.extent_le (rest : c.AtRest p caches)
    (found : c.scheduler.tickets.get? id = some ticket) :
    c.extent id ≤ ticket.request.inputLength + max ticket.request.settings.maxTokens 1 - 1 := by
  have fewer := rest.reported_lt found
  rw [extent_of_found found]
  omega

/-- No request that is known takes more blocks than there are. -/
def Housed (c : Cluster) (caches : List PagedCache) : Prop :=
  ∀ id ∈ c.scheduler.tickets.keys, ∀ cache ∈ caches,
    c.extent id ⌈/⌉ cache.pool.blockSize ≤ cache.pool.blockCount

/-- A request that fits alone never takes more blocks than there are. -/
theorem AtRest.housed (rest : c.AtRest p caches) (fitting : c.Fitting p) : c.Housed caches := by
  intro id known cache member
  obtain ⟨ticket, found⟩ := Registry.mem_keys_iff.mp known
  have model : cache.model ∈ p.models := by
    rw [← rest.live.models]
    exact List.mem_map_of_mem member
  calc c.extent id ⌈/⌉ cache.pool.blockSize
      ≤ (ticket.request.inputLength + max ticket.request.settings.maxTokens 1 - 1) ⌈/⌉
          cache.pool.blockSize := Count.ceilDiv_mono (rest.extent_le found) _
    _ ≤ cache.pool.blockCount := fitting id ticket.terms (terms?_of_found found) cache.model model

/-- Where nobody runs, no cache has a sequence. -/
theorem AtRest.sequences_of_idle (rest : c.AtRest p caches) (idle : c.scheduler.running = [])
    {cache : PagedCache} (member : cache ∈ caches) : cache.sequences.keys = [] := by
  refine List.eq_nil_iff_forall_not_mem.mpr fun sequence held => ?_
  obtain ⟨id, runs, _⟩ := (rest.live.owned.registered cache member sequence).mp held
  rw [idle] at runs
  cases runs

/-- Where nobody runs, every block is free. -/
theorem AtRest.freeCount_of_idle (rest : c.AtRest p caches) (idle : c.scheduler.running = [])
    {cache : PagedCache} (member : cache ∈ caches) :
    cache.pool.freeCount = cache.pool.blockCount :=
  (rest.live.owned.sound cache member).freeCount_eq (rest.sequences_of_idle idle member)

/-- **Somebody can be admitted where nobody runs.** -/
theorem Housed.not_closed (housed : c.Housed caches) (rest : c.AtRest p caches) {slots : Nat}
    (positive : 0 < slots) (pending : c.scheduler.hasPending = true)
    (idle : c.scheduler.running = []) : ¬ c.Closed slots caches := by
  have consistent := rest.live.consistent
  intro closed
  cases front : c.scheduler.waiting with
  | nil =>
      obtain ⟨id, known⟩ := List.exists_mem_of_ne_nil _ (Scheduler.hasPending_iff.mp pending)
      have queued := (consistent.known id).mpr known
      rw [idle, front] at queued
      cases queued
  | cons id others =>
      have queued : id ∈ c.scheduler.running ++ c.scheduler.waiting := by
        rw [front]
        exact List.mem_append_right _ List.mem_cons_self
      have slot : c.scheduler.running.length < slots := by
        rw [idle]
        exact positive
      obtain ⟨cache, member, short⟩ := closed id others front slot
      have fits := housed id ((consistent.known id).mp queued) cache member
      rw [rest.freeCount_of_idle idle member] at short
      omega

/-- A cache holds nothing but the sequence of the only request that runs. -/
theorem AtRest.freeCount_of_lone (rest : c.AtRest p caches) (lone : c.scheduler.running = [id])
    {cache : PagedCache} (member : cache ∈ caches) :
    cache.pool.freeCount + (c.extent id - 1) ⌈/⌉ cache.pool.blockSize =
      cache.pool.blockCount := by
  have owned := rest.live.owned
  have runs : id ∈ c.scheduler.running := lone ▸ List.mem_cons_self
  obtain ⟨place, there⟩ := List.mem_iff_getElem?.mp member
  obtain ⟨sequence, written, held, found, length, _⟩ :=
    (Decoding.ofAtRest rest).lacksOne_eq runs there
  have single : cache.sequences.keys = [sequence] := by
    refine List.perm_singleton.mp ((List.perm_ext_iff_of_nodup cache.sequences.nodup_keys
      (List.pairwise_singleton _ _)).mpr fun other => ?_)
    rw [owned.registered cache member, lone]
    simp only [List.mem_singleton, exists_eq_left, held, Option.some.injEq]
    exact eq_comm
  rw [← (owned.sound cache member).freeCount_add_of_single single found, ← length,
    Nat.add_sub_cancel]

/-- **Nobody starves alone.** The blocks that a starving request lacks are held by one that was
given up. -/
theorem Housed.givenUp_of_starved (housed : c.Housed caches) (rest : c.AtRest p caches)
    (starved : c.Starved caches) :
    ∃ holder ∈ c.scheduler.running, c.scheduler.givenUp holder = true := by
  obtain ⟨id, spared, cache, member, none, full⟩ := starved
  have divided := rest.live.divided member
  by_contra nobody
  have lone : c.scheduler.running = [id] := by
    rw [← spared, Scheduler.spared, eq_comm, List.filter_eq_self]
    intro other runs
    by_contra given
    exact nobody ⟨other, runs, by simpa using given⟩
  obtain ⟨ticket, found⟩ :=
    rest.live.consistent.found_of_running (lone ▸ List.mem_singleton_self id)
  have fits := housed id (Registry.mem_keys_iff.mpr ⟨ticket, found⟩) cache member
  have taken := rest.freeCount_of_lone lone member
  have asked := (rest.live.stands id ticket found).asked
  have extent := extent_of_found found
  rw [show c.extent id = c.extent id - 1 + 1 from by omega, Count.ceilDiv_succ divided,
    if_pos full] at fits
  omega

theorem AtRest.not_closed (rest : c.AtRest p caches) (fitting : c.Fitting p) {slots : Nat}
    (positive : 0 < slots) (pending : c.scheduler.hasPending = true)
    (idle : c.scheduler.running = []) : ¬ c.Closed slots caches :=
  (rest.housed fitting).not_closed rest positive pending idle

theorem AtRest.givenUp_of_starved (rest : c.AtRest p caches) (fitting : c.Fitting p)
    (starved : c.Starved caches) :
    ∃ holder ∈ c.scheduler.running, c.scheduler.givenUp holder = true :=
  (rest.housed fitting).givenUp_of_starved rest starved

end Cluster

/-! ### Requests that were submitted -/

/-- What is known about a request after a call was known before, or it was just submitted. -/
theorem Call.Effect.origin {p : Premises} {id : RequestId} {call : Call} {answer : Answer}
    {known : Option Terms} {told : List (List TokenId × Option FinishReason)} {after : Terms}
    (effect : Call.Effect p id call answer known told (some after)) :
    (∃ before, known = some before ∧ after.request = before.request) ∨
      ∃ submission, call = .submit submission ∧
        after.request = ⟨id, submission.inputs, submission.settings⟩ := by
  cases effect with
  | nothing => exact Or.inl ⟨after, rfl, rfl⟩
  | submitted => exact Or.inr ⟨_, rfl, rfl⟩
  | marked => exact Or.inl ⟨_, rfl, rfl⟩
  | told tells =>
      cases tells with
      | nothing => exact Or.inl ⟨_, rfl, rfl⟩
      | next => exact Or.inl ⟨_, rfl, rfl⟩

namespace Engine

variable {p : Premises} {start engine after : Engine} {calls : List Call} {answers : List Answer}

/-- Every request that these calls submit fits alone. -/
def SubmitsFitting (p : Premises) (calls : List Call) : Prop :=
  ∀ submission, .submit submission ∈ calls →
    FitsAlone p.models submission.inputs submission.settings

theorem Starts.unknown (starts : start.Starts p) (id : RequestId) :
    start.cluster.terms? id = none := by
  obtain ⟨caches, built, _, _, ran, same⟩ := starts
  obtain ⟨_, rfl⟩ := (ofReplicas_yields _ _ _).of_ok ran
  rcases same with rfl | rfl <;> rfl

/-- **The requests that are known** are among those submitted. -/
theorem fits_of_served (rests : engine.Rests p)
    (served : engine.serve calls = some (answers, after)) (fits : SubmitsFitting p calls)
    (fitting : engine.cluster.Fitting p) : after.cluster.Fitting p := by
  induction calls generalizing engine answers with
  | nil =>
      cases served
      exact fitting
  | cons call rest ih =>
      obtain ⟨first, middle, later, answered, onwards, _⟩ := serve_cons.mp served
      obtain ⟨rests', records, _, effects⟩ := rests.answered answered
      refine ih rests' onwards (fun submission member => fits submission (.tail call member)) ?_
      intro id terms known
      have effect := effects id
      rw [known] at effect
      obtain ⟨before, was, same⟩ | ⟨submission, rfl, same⟩ := effect.origin
      · rw [same]
        exact fitting id before was
      · rw [same]
        exact fits submission List.mem_cons_self

/-- **Steps of requests that fit alone.** Where every request submitted so far fits alone, a step
succeeds exactly if the cluster is not stalled; a stalled one turns every step down, though a
running request was given up and would leave its blocks. -/
theorem step_ok_iff_not_stalled (starts : start.Starts p)
    (served : start.serve calls = some (answers, engine)) (fits : SubmitsFitting p calls)
    (short : engine.cluster.load < Count.limit) :
    ((∃ report after, step engine = .ok report after) ↔
      ¬ engine.cluster.Stalled p.settings.maxRunning) ∧
    (engine.cluster.Stalled p.settings.maxRunning →
      step engine = .error (.refused .outOfBlocks) engine ∧
        ∃ holder ∈ engine.cluster.scheduler.running,
          engine.cluster.scheduler.givenUp holder = true) := by
  have rests := starts.rests.served served
  have fitting : engine.cluster.Fitting p := fits_of_served starts.rests served fits
    fun id terms known => by
      rw [starts.unknown id] at known
      cases known
  obtain ⟨caches, rest⟩ := rests.rest
  have same := rest.live.owned.caches_eq
  have pending : engine.cluster.Stalled p.settings.maxRunning → engine.hasPending = true := by
    rintro ⟨_, id, spared, _⟩
    have runs : id ∈ engine.cluster.scheduler.running :=
      List.mem_of_mem_filter (show id ∈ engine.cluster.scheduler.spared from
        spared ▸ List.mem_cons_self)
    exact Scheduler.hasPending_iff.mpr
      (List.ne_nil_of_mem ((rest.live.consistent.known id).mp (List.mem_append_left _ runs)))
  have jammed : engine.hasPending = true →
      engine.cluster.Jammed p.settings.maxRunning engine.cluster.caches →
        engine.cluster.Stalled p.settings.maxRunning := by
    rintro pending ⟨closed, idle | starved⟩
    · rw [same] at closed
      exact absurd closed (rest.not_closed fitting rests.slots pending idle)
    · exact ⟨closed, starved⟩
  rcases (step_meets rests).ends with
    ⟨report, after, run, _, open_⟩ | ⟨_, after, run, ⟨_, large⟩ | ⟨rfl, rfl, waits, jam, _⟩⟩
  · have free : ¬ engine.cluster.Stalled p.settings.maxRunning := fun stalled =>
      open_ (pending stalled) ⟨stalled.closed, Or.inr stalled.starved⟩
    exact ⟨⟨fun _ => free, fun _ => ⟨report, after, run⟩⟩, fun stalled => absurd stalled free⟩
  · exact absurd large (Nat.not_le.mpr short)
  · have stalled := jammed waits jam
    refine ⟨⟨fun done => ?_, fun free => absurd stalled free⟩, fun _ => ⟨run, ?_⟩⟩
    · obtain ⟨report, after, ok⟩ := done
      cases run.symm.trans ok
    · exact rest.givenUp_of_starved fitting (same ▸ stalled.starved)

/-- After these calls a step is turned down, though both requests fit alone. -/
theorem serve_crowdedCalls : SubmitsFitting tinyPremises crowdedCalls ∧ ∃ answers engine,
    tinyEngine.serve crowdedCalls = some (answers, engine) ∧
      engine.cluster.load < Count.limit ∧ ∀ report after, step engine ≠ .ok report after := by
  have fits : SubmitsFitting tinyPremises crowdedCalls := by
    intro submission member
    have one : submission = tinySubmission "a" ∨ submission = tinySubmission "b" := by
      simpa [crowdedCalls] using member
    rcases one with rfl | rfl <;> decide
  have refused : ((tinyEngine.serve crowdedCalls).map Prod.snd).any (fun engine =>
      decide (engine.cluster.load < Count.limit) &&
        match step engine with
        | .ok _ _ => false
        | .error _ _ => true) = true := by
    decide +kernel
  cases served : tinyEngine.serve crowdedCalls with
  | none =>
      rw [served] at refused
      cases refused
  | some ending =>
      obtain ⟨answers, engine⟩ := ending
      rw [served] at refused
      obtain ⟨short, refused⟩ := Bool.and_eq_true_iff.mp refused
      refine ⟨fits, answers, engine, rfl, of_decide_eq_true short, fun report after run => ?_⟩
      dsimp only at refused
      rw [run] at refused
      cases refused

/-- It is not so that a step succeeds whenever every request fits alone. -/
theorem not_step_ok_of_fitting :
    ¬ ∀ (p : Premises) (start engine : Engine) (calls : List Call) (answers : List Answer),
      start.Starts p → start.serve calls = some (answers, engine) → SubmitsFitting p calls →
      engine.cluster.load < Count.limit → ∃ report after, step engine = .ok report after := by
  intro always
  obtain ⟨fits, answers, engine, served, short, refused⟩ := serve_crowdedCalls
  obtain ⟨report, after, run⟩ :=
    always tinyPremises tinyEngine engine crowdedCalls answers starts_tinyEngine served fits short
  exact refused report after run

/-- The request that was given up holds the blocks that the other one lacks. -/
theorem step_ok_iff_not_stalled_crowded : ∃ answers engine,
    tinyEngine.serve crowdedCalls = some (answers, engine) ∧
      engine.cluster.Stalled tinyPremises.settings.maxRunning ∧
      step engine = .error (.refused .outOfBlocks) engine ∧
      ∃ holder ∈ engine.cluster.scheduler.running,
        engine.cluster.scheduler.givenUp holder = true := by
  obtain ⟨fits, answers, engine, served, short, refused⟩ := serve_crowdedCalls
  obtain ⟨exact, turned⟩ := step_ok_iff_not_stalled starts_tinyEngine served fits short
  have stalled : engine.cluster.Stalled tinyPremises.settings.maxRunning := by
    by_contra free
    obtain ⟨report, after, run⟩ := exact.mpr free
    exact refused report after run
  exact ⟨answers, engine, served, stalled, turned stalled⟩

end Engine

end ContinuousBatching
