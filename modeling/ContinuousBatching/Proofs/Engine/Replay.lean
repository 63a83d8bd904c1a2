/-
**Replaying is as good as going on.**

A running request goes on by being fed its last token. If it is preempted instead, it gives its
blocks back, and when it is admitted again it is fed its input and all its tokens at once, on a
sequence with another number. Either way the same can be seen of it afterwards: on every replica the
tokens committed, what was written and where, and of the request as a whole what it occupies and how
far it was reported. Nothing of that depends on what happened to other requests in between.

* `Cluster.laneView?`, `Cluster.progress?`: what can be seen of a running request;
* `Cluster.Live.views_of_fed`: after one feeding its terms decide all of it;
* `Cluster.AtRest.decodeOne_meets`, `Cluster.AtRest.preempt_meets`: the two ways begin;
* `Engine.replay_equals_decode`: they end in the same, and they need the same blocks.
-/

import ContinuousBatching.Proofs.Engine.Occupancy

namespace ContinuousBatching

/-- What a replica shows of a running request, the number of its sequence left aside. -/
structure LaneView where
  committed : List Sample
  /-- The tokens written. -/
  context : List TokenId
  /-- The number of positions written. -/
  length : Nat
  /-- The number of blocks. -/
  blocks : Nat
  deriving DecidableEq

/-- What the scheduler shows of a request. -/
structure Progress where
  occupied : Nat
  reported : Nat
  finish : Option FinishReason
  deriving DecidableEq

/-- What is shown of a request with these terms that was fed once since its last report. -/
def Terms.progress (terms : Terms) : Progress := ⟨terms.extent, terms.reported, terms.finish⟩

/-- What a model shows of a request with these terms that was fed once since its last report. -/
def Terms.viewBy (terms : Terms) (model : CacheModel) : LaneView where
  committed := solo model.nextToken (tokenIds terms.request.inputs) (terms.reported + 1)
  context := tokenIds terms.request.inputs ++
    (solo model.nextToken (tokenIds terms.request.inputs) terms.reported).map Sample.token
  length := terms.extent
  blocks := terms.extent ⌈/⌉ model.blockSize

namespace Cluster

/-- What the replica at a place shows of a request. -/
def laneView? (c : Cluster) (id : RequestId) (place : Nat) : Option LaneView := do
  let ticket ← c.scheduler.tickets.get? id
  let lane ← ticket.lane? place
  let sequence ← lane.sequence
  match ← c.replicas[place]? with
  | .unpaged _ => none
  | .paged cache =>
    let written ← cache.sequences.get? sequence
    some ⟨lane.committed, written.context, written.table.length, written.table.blocks.length⟩

/-- What the scheduler shows of a request. -/
def progress? (c : Cluster) (id : RequestId) : Option Progress :=
  (c.scheduler.tickets.get? id).map fun ticket =>
    ⟨ticket.occupied, ticket.reported, ticket.finish⟩

/-- Everything that can be seen of a request follows from its terms, and from its having been fed
once since its last report. -/
structure Shows (p : Premises) (c : Cluster) (id : RequestId) (terms : Terms) : Prop where
  progress : c.progress? id = some terms.progress
  lanes : ∀ (place : Nat) (model : CacheModel), p.models[place]? = some model →
    c.laneView? id place = some (terms.viewBy model)

variable {p : Premises} {c d : Cluster} {caches : List PagedCache} {cache : PagedCache}
  {id : RequestId} {ticket : Ticket} {batch : List RequestId} {place : Nat}

/-- **Terms decide what is seen** of a running request that was fed once since its last report. -/
theorem Live.shows (live : d.Live p caches) (runs : id ∈ d.scheduler.running)
    (found : d.scheduler.tickets.get? id = some ticket)
    (level : ∀ lane ∈ ticket.lanes, lane.committed.length = ticket.reported + 1)
    (drained : ∀ lane ∈ ticket.lanes, lane.Drained) : d.Shows p id ticket.terms := by
  have stands := live.stands id ticket found
  refine ⟨?_, fun place model there => ?_⟩
  · rw [progress?, found, Option.map_some, Ticket.occupied,
      level _ Ticket.primary_mem_lanes, Nat.add_sub_cancel]
    rfl
  · have bound := (List.getElem?_eq_some_iff.mp there).1
    rw [← live.length_caches] at bound
    have cache_at : caches[place]? = some caches[place] := List.getElem?_eq_getElem bound
    obtain ⟨lane, lane_at⟩ := live.lane_at found cache_at
    have member := Ticket.lane_mem lane_at
    obtain ⟨sequence, written, _, attached, known, follows⟩ :=
      live.follows_at runs found lane_at cache_at
    have model_eq : caches[place].model = model :=
      Option.some.inj ((live.model_at cache_at).symm.trans there)
    have tokens : lane.committed =
        solo model.nextToken (tokenIds ticket.request.inputs) (ticket.reported + 1) := by
      have alone := (stands.alone place lane model lane_at there).committed
      rwa [level lane member] at alone
    have context : written.context = tokenIds ticket.request.inputs ++
        (solo model.nextToken (tokenIds ticket.request.inputs) ticket.reported).map
          Sample.token := by
      rw [follows.context_of_drained (drained lane member), Lane.committedTokens, tokens, solo,
        List.map_append, List.map_singleton, List.dropLast_concat]
    have length : written.table.length = ticket.terms.extent := by
      have positions := follows.length
      rw [(drained lane member).positions_next, level lane member] at positions
      exact Nat.succ.inj positions
    have blocks : written.table.blocks.length =
        ticket.terms.extent ⌈/⌉ model.blockSize := by
      rw [((live.owned.sound _ (List.mem_of_getElem? cache_at)).sized sequence written known).2,
        length, ← model_eq]
      rfl
    have replica : d.replicas[place]? = some (.paged caches[place]) := by
      rw [live.owned.replicas, List.getElem?_map, cache_at]
      rfl
    unfold laneView?
    rw [found, Option.bind_eq_bind, Option.bind_some, lane_at]
    simp only [Option.bind_eq_bind, Option.bind_some, attached, replica, known, tokens, context,
      length, blocks]
    rfl

/-- While nothing is reported, the terms of a request stay the same. -/
theorem Silent.terms_eq {terms : Terms} (silent : c.Silent d) (known : c.terms? id = some terms)
    (found : d.scheduler.tickets.get? id = some ticket) : ticket.terms = terms := by
  have now := silent.terms id
  rw [terms?_of_found found, known] at now
  exact Option.some.inj now

/-- What is seen in the middle of a step of a request that was fed in it. -/
theorem Grown.shows {terms : Terms} (grown : c.Grown p batch d caches) (member : id ∈ batch)
    (known : c.terms? id = some terms) : d.Shows p id terms := by
  have runs := grown.runs id member
  obtain ⟨ticket, found⟩ := grown.live.consistent.found_of_running runs
  rw [← grown.silent.terms_eq known found]
  refine grown.live.shows runs found (fun lane there => ?_) (grown.drained id ticket found runs)
  rw [grown.level id ticket found lane there, if_pos member]

/-- After a preemption each cache is without the sequence. -/
theorem preempted_at (there : caches[place]? = some cache) (sequence : SequenceId) :
    (c.preempted caches id ticket sequence).replicas[place]? =
      some (.paged (cache.without sequence)) := by
  show ((caches.map fun cache => cache.without sequence).map Replica.paged)[place]? = _
  rw [List.getElem?_map, List.getElem?_map, there]
  rfl

namespace AtRest

/-- Where the test passes, a running request lacks no more blocks than are free. -/
theorem want_le_of_decodeFits (rest : c.AtRest p caches) (runs : id ∈ c.scheduler.running)
    (fits : c.decodeFits [id] = .ok true) (there : caches[place]? = some cache) :
    c.want place cache id ≤ cache.pool.freeCount := by
  have answer := ((Decoding.ofAtRest rest).decodeFits_yields (List.nodup_singleton id)
    (List.forall_mem_singleton.mpr runs)).of_ok fits
  have enough := answer.mp rfl place cache there
  rwa [List.map_singleton, List.sum_cons, List.sum_nil, Nat.add_zero] at enough

/-- What a model shows of a request after the next feeding, said by the lane that it has now. -/
theorem viewBy_terms (rest : c.AtRest p caches) (found : c.scheduler.tickets.get? id = some ticket)
    {lane : Lane} {model : CacheModel} (lane_at : ticket.lane? place = some lane)
    (model_at : p.models[place]? = some model) :
    ticket.terms.viewBy model =
      { committed := lane.committed ++
          [model.nextToken (tokenIds ticket.request.inputs ++ lane.committedTokens)]
        context := tokenIds ticket.request.inputs ++ lane.committedTokens
        length := ticket.request.inputLength + lane.committed.length
        blocks := (ticket.request.inputLength + lane.committed.length) ⌈/⌉
          model.blockSize } := by
  have stands := rest.live.stands id ticket found
  have alone := (stands.alone place lane model lane_at model_at).committed
  have level := (rest.settled id ticket found).level lane (Ticket.lane_mem lane_at)
  rw [level] at alone
  rw [Terms.viewBy, solo, Lane.committedTokens, alone, length_solo]
  rfl

/-- **Going on.** A running request that lacks no more blocks than are free is fed its last token.
-/
theorem decodeOne_meets (rest : c.AtRest p caches) (runs : id ∈ c.scheduler.running)
    (fits : ∀ place cache, caches[place]? = some cache →
      c.want place cache id ≤ cache.pool.freeCount) :
    Meets (decodeOne id) c (fun _ d => ∀ terms, c.terms? id = some terms → d.Shows p id terms)
      (fun stop _ => Overflows c.demand stop) := by
  have decoding := Decoding.ofAtRest rest
  have feeding : Feeding p c Lane.Drained [id] c caches fun _ => [id] := by
    refine .start rest.live (List.nodup_singleton id) (List.forall_mem_singleton.mpr runs)
      decoding.level (fun other member ticket found => ?_)
      (fun other ticket found runs _ => decoding.drained other ticket found runs)
      fun place cache there => ?_
    · rw [List.mem_singleton.mp member] at found
      exact decoding.drained id ticket found runs
    · rw [List.map_singleton, List.sum_cons, List.sum_nil, Nat.add_zero]
      exact fits place cache there
  unfold decodeOne
  refine (onEachPlace_meets feedLast_meets feeding).mono ?_ (fun _ _ large => large)
  rintro _ d ⟨caches', fed⟩ terms known
  have runs : id ∈ d.scheduler.running := fed.running ▸ runs
  obtain ⟨ticket, found⟩ := fed.live.consistent.found_of_running runs
  rw [← fed.silent.terms_eq known found]
  refine fed.live.shows runs found (fun lane member => ?_) fun lane member => ?_
  · obtain ⟨place, there⟩ := List.mem_iff_getElem?.mp member
    have level := fed.level id ticket place lane found there
    rwa [if_pos ⟨List.mem_singleton_self id, List.not_mem_nil⟩] at level
  · obtain ⟨place, there⟩ := List.mem_iff_getElem?.mp member
    exact fed.drained id ticket place lane found there runs List.not_mem_nil

/-- **Giving way.** A running request that was not given up can be preempted at any time between two
steps. -/
theorem preempt_meets (rest : c.AtRest p caches) (runs : id ∈ c.scheduler.running)
    (found : c.scheduler.tickets.get? id = some ticket)
    (wanted : ticket.abortRequested = false) :
    Meets (preempt id) c
      (fun _ d => ∃ sequence, ticket.primary.sequence = some sequence ∧
        d = c.preempted caches id ticket sequence ∧
        d.AtRest p (caches.map fun cache => cache.without sequence) ∧ c.Silent d)
      (fun _ _ => False) := by
  refine ((Decoding.ofAtRest rest).preempt_meets runs found).mono ?_ (fun _ _ => False.elim)
  rintro _ d ⟨sequence, attached, rfl, decoding, silent⟩
  refine ⟨sequence, attached, rfl, ⟨decoding.live, fun other held there => ?_⟩, silent⟩
  obtain ⟨before, was, terms⟩ := silent.found there
  have settled := rest.settled other before was
  have request : before.request = held.request := congrArg Terms.request terms
  have reported : before.reported = held.reported := congrArg Terms.reported terms
  have finish : before.finish = held.finish := congrArg Terms.finish terms
  have aborted : before.abortRequested = held.abortRequested := congrArg Terms.abortRequested terms
  refine ⟨decoding.level other held there, finish ▸ settled.unfinished, fun idle => ?_,
    decoding.drained other held there, request ▸ reported ▸ settled.judged⟩
  rw [← aborted]
  by_cases same : other = id
  · rw [same, found] at was
    cases was
    exact wanted
  · refine settled.wanted fun runs => idle ?_
    exact rest.live.consistent.nodup_running.mem_erase_iff.mpr ⟨same, runs⟩

/-- Its blocks are free after that: there is room for all its positions exactly if there was room
for one position more. -/
theorem fits_without_iff (rest : c.AtRest p caches) (runs : id ∈ c.scheduler.running)
    (found : c.scheduler.tickets.get? id = some ticket) {sequence : SequenceId}
    (attached : ticket.primary.sequence = some sequence)
    (there : caches[place]? = some cache) :
    c.want place cache id ≤ cache.pool.freeCount ↔
      ticket.terms.extent ⌈/⌉ cache.pool.blockSize ≤
        (cache.without sequence).pool.freeCount := by
  have live := rest.live
  obtain ⟨lane, lane_at⟩ := live.lane_at found there
  have member := Ticket.lane_mem lane_at
  obtain ⟨held, written, same, known, _, want⟩ := live.want_eq runs found lane_at there
  cases attached.symm.trans same
  have sound := live.owned.sound cache (List.mem_of_getElem? there)
  have length := (rest.settled id ticket found).level lane member
  rw [want, PagedCache.freeCount_without sound known, (sound.sized sequence written known).2,
    Nat.sub_le_iff_le_add, length]
  rfl

/-- **Coming back.** The request at the front of the queue is admitted and fed everything if there
is a slot and room for all its positions. -/
theorem turn_meets_front (rest : c.AtRest p caches) {others : List RequestId}
    (front : c.scheduler.waiting = id :: others)
    (slot : c.scheduler.running.length < p.settings.maxRunning)
    (fits : ∀ cache ∈ caches,
      c.extent id ⌈/⌉ cache.pool.blockSize ≤ cache.pool.freeCount) :
    Meets (turn p.settings.maxRunning) c (fun report _ => id ∈ report.scheduled)
      (fun stop _ => Overflows c.demand stop) := by
  unfold turn
  rw [meets_bind]
  refine (admitFitting_meets rest).mono ?_ (fun _ _ large => large)
  rintro admitted d ⟨caches', result⟩
  have some : admitted ≠ [] := by
    intro none
    obtain ⟨cache, member, short⟩ := result.closed none id others front slot
    exact absurd (fits cache member) (Nat.not_le_of_lt short)
  have first : id ∈ admitted := by
    obtain ⟨head, tail, rfl⟩ := List.exists_cons_of_ne_nil some
    have queue := result.waiting
    rw [front] at queue
    rw [(List.cons.inj queue).1]
    exact List.mem_cons_self
  refine feedBatch_rule (fun _ => ?_) (fun none => absurd none some) fun none => absurd none some
  exact (result.prefill_meets rest some).mono (fun _ _ _ => first) (fun _ _ large => large)

end AtRest

end Cluster

namespace Engine

open Cluster

variable {p : Premises} {engine : Engine} {id : RequestId} {ticket : Ticket}

/-- **Replaying a running request against going on with it.** In `waiting` the request was
preempted. -/
structure Replays (p : Premises) (engine : Engine) (id : RequestId) (ticket : Ticket)
    (waiting : Cluster) : Prop where
  preempted : preempt id engine.cluster = .ok () waiting
  front : waiting.scheduler.waiting = id :: engine.cluster.scheduler.waiting
  /-- On every replica there is room for one position more exactly if, after the preemption, there
  is room for all positions. -/
  fits_iff : ∀ (place : Nat) (cache : PagedCache),
    engine.cluster.replicas[place]? = some (.paged cache) →
      ∃ freed : PagedCache, waiting.replicas[place]? = some (.paged freed) ∧
        (engine.cluster.want place cache id ≤ cache.pool.freeCount ↔
          (ticket.request.inputLength + ticket.primary.committed.length) ⌈/⌉
            cache.pool.blockSize ≤ freed.pool.freeCount)
  /-- If there is room, the request can go on. -/
  decodes : engine.cluster.decodeFits [id] = .ok true →
    Meets (decodeOne id) engine.cluster (fun _ _ => True)
      (fun stop _ => Overflows engine.cluster.demand stop)
  /-- If there is room and a slot, the next step replays the request. -/
  replays : engine.cluster.decodeFits [id] = .ok true →
    waiting.scheduler.running.length < engine.settings.maxRunning →
    Meets (turn engine.settings.maxRunning) waiting (fun report _ => id ∈ report.scheduled)
      (fun stop _ => Overflows engine.cluster.demand stop)
  /-- Whatever happens until the request is fed again, everything that can be seen of it then is as
  if it had gone on: it has one token more, the one that each model generates for all of them. -/
  same : engine.cluster.decodeFits [id] = .ok true →
    ∀ decoded, decodeOne id engine.cluster = .ok () decoded →
    ∀ calls answers later, { engine with cluster := waiting }.serve calls = some (answers, later) →
    later.cluster.terms? id = engine.cluster.terms? id →
    ∀ report replayed, turn engine.settings.maxRunning later.cluster = .ok report replayed →
    id ∈ report.scheduled →
      (replayed.progress? id = decoded.progress? id ∧
        decoded.progress? id = some ⟨ticket.request.inputLength + ticket.primary.committed.length,
          ticket.reported, ticket.finish⟩) ∧
      ∀ place lane model, ticket.lane? place = some lane → p.models[place]? = some model →
        replayed.laneView? id place = decoded.laneView? id place ∧
        decoded.laneView? id place = some
          { committed := lane.committed ++
              [model.nextToken (tokenIds ticket.request.inputs ++ lane.committedTokens)]
            context := tokenIds ticket.request.inputs ++ lane.committedTokens
            length := ticket.request.inputLength + lane.committed.length
            blocks := (ticket.request.inputLength + lane.committed.length) ⌈/⌉
              model.blockSize }

/-- **Preempting a running request and replaying it later** is as good as going on with it, and
needs the same blocks. -/
theorem replay_equals_decode (reached : engine.Reached p)
    (runs : id ∈ engine.cluster.scheduler.running)
    (found : engine.cluster.scheduler.tickets.get? id = some ticket)
    (wanted : ticket.abortRequested = false) :
    ∃ waiting, Replays p engine id ticket waiting := by
  have rests := reached.rests
  obtain ⟨caches, rest⟩ := rests.rest
  have known := terms?_of_found found
  have extent : ticket.terms.extent =
      ticket.request.inputLength + ticket.primary.committed.length := by
    rw [(rest.settled id ticket found).level _ Ticket.primary_mem_lanes]
    rfl
  rcases (rest.preempt_meets runs found wanted).ends with
    ⟨⟨⟩, waiting, preempted, sequence, attached, rfl, rest', silent⟩ | ⟨_, _, _, impossible⟩
  swap
  · exact impossible.elim
  have fits_iff : ∀ place cache, caches[place]? = some cache →
      (engine.cluster.want place cache id ≤ cache.pool.freeCount ↔
        ticket.terms.extent ⌈/⌉ cache.pool.blockSize ≤
          (cache.without sequence).pool.freeCount) :=
    fun place cache there => rest.fits_without_iff runs found attached there
  have decoding : engine.cluster.decodeFits [id] = .ok true →
      Meets (decodeOne id) engine.cluster
        (fun _ d => ∀ terms, engine.cluster.terms? id = some terms → d.Shows p id terms)
        (fun stop _ => Overflows engine.cluster.demand stop) := fun fits =>
    rest.decodeOne_meets runs fun _ _ there => rest.want_le_of_decodeFits runs fits there
  refine ⟨_, preempted, rfl, fun place cache there => ?_, fun fits => ?_, fun fits slot => ?_,
    fun fits decoded decodes calls answers later served terms report replayed turned member => ?_⟩
  · rw [rest.live.owned.replicas, List.getElem?_map] at there
    obtain ⟨held, cache_at, same⟩ := Option.map_eq_some_iff.mp there
    cases same
    refine ⟨cache.without sequence, preempted_at cache_at sequence, ?_⟩
    rw [← extent]
    exact fits_iff place cache cache_at
  · exact (decoding fits).mono (fun _ _ _ => trivial) (fun _ _ large => large)
  · rw [rests.settings] at slot ⊢
    rw [← silent.demand]
    refine rest'.turn_meets_front rfl slot fun freed member => ?_
    obtain ⟨cache, was, rfl⟩ := List.mem_map.mp member
    obtain ⟨place, there⟩ := List.mem_iff_getElem?.mp was
    rw [silent.extent, extent_of_found found, PagedCache.blockSize_without]
    exact (fits_iff place cache there).mp (rest.want_le_of_decodeFits runs fits there)
  · obtain ⟨caches', rest''⟩ := ((rests.on_cluster rest').served served).rest
    rw [rests.settings] at turned
    have before : later.cluster.terms? id = some ticket.terms := terms.trans known
    have replayed : replayed.Shows p id ticket.terms := by
      obtain ⟨_, caches'', grown⟩ := (meets_iff_of_ok turned).mp (turn_meets rest'')
      exact grown.shows member before
    have decoded : decoded.Shows p id ticket.terms :=
      (meets_iff_of_ok decodes).mp (decoding fits) ticket.terms known
    refine ⟨⟨replayed.progress.trans decoded.progress.symm, ?_⟩,
      fun place lane model lane_at model_at => ⟨(replayed.lanes place model model_at).trans
        (decoded.lanes place model model_at).symm, ?_⟩⟩
    · rw [decoded.progress, ← extent]
      rfl
    · rw [decoded.lanes place model model_at, rest.viewBy_terms found lane_at model_at]

/-- Two requests run, and have two tokens each. -/
def pairedCalls : List Call :=
  [.submit (tinySubmission "a"), .submit (tinySubmission "b"), .step, .step]

/-- The first of them is preempted, the other one is given up and a third one is submitted; then the
next step replays the first one. -/
theorem replay_equals_decode_paired : ∃ answers engine ticket waiting decoded later report replayed,
    tinyEngine.serve pairedCalls = some (answers, engine) ∧
      engine.cluster.scheduler.tickets.get? "a" = some ticket ∧
      Replays tinyPremises engine "a" ticket waiting ∧
      engine.cluster.decodeFits ["a"] = .ok true ∧
      decodeOne "a" engine.cluster = .ok () decoded ∧
      { engine with cluster := waiting }.serve [.abort "b", .submit (tinySubmission "c")] =
        some ([.done, .named "c"], later) ∧
      turn engine.settings.maxRunning later.cluster = .ok report replayed ∧
      "a" ∈ report.scheduled ∧ replayed.progress? "a" = decoded.progress? "a" ∧
      replayed.laneView? "a" 0 = decoded.laneView? "a" 0 := by
  have ran : (do
      let paired ← tinyEngine.serve pairedCalls
      let engine := paired.2
      let ticket ← engine.cluster.scheduler.tickets.get? "a"
      let waiting ← completed (preempt "a") engine.cluster
      let decoded ← completed (decodeOne "a") engine.cluster
      let later ← { engine with cluster := waiting.2 }.serve
        [.abort "b", .submit (tinySubmission "c")]
      let replayed ← completed (turn engine.settings.maxRunning) later.2.cluster
      return decide ("a" ∈ engine.cluster.scheduler.running) &&
        decide (ticket.abortRequested = false) &&
        decide ((engine.cluster.decodeFits ["a"]).toOption = some true) &&
        decide (later.1 = [.done, .named "c"]) &&
        decide (later.2.cluster.terms? "a" = engine.cluster.terms? "a") &&
        decide ("a" ∈ replayed.1.scheduled)) = some true := by
    decide +kernel
  simp only [Option.bind_eq_bind, Option.bind_eq_some_iff, Option.pure_def, Option.some.injEq,
    Bool.and_eq_true, decide_eq_true_eq] at ran
  obtain ⟨⟨answers, engine⟩, served, ticket, found, ⟨⟨⟩, preempted⟩, preempts, ⟨⟨⟩, decoded⟩,
    decodes, ⟨told, later⟩, goesOn, ⟨report, replayed⟩, turned, ⟨⟨⟨⟨runs, wanted⟩, fits⟩, rfl⟩,
    terms⟩, member⟩ := ran
  dsimp only at *
  have reached : engine.Reached tinyPremises :=
    ⟨tinyEngine, pairedCalls, answers, starts_tinyEngine, served⟩
  obtain ⟨waiting, replays⟩ := replay_equals_decode reached runs found wanted
  have preempts := completed_eq_some.mp preempts
  rw [replays.preempted] at preempts
  cases preempts
  have fits : engine.cluster.decodeFits ["a"] = .ok true := by
    cases test : engine.cluster.decodeFits ["a"] with
    | ok answer =>
        rw [test] at fits
        exact congrArg Except.ok (Option.some.inj fits)
    | error stop =>
        rw [test] at fits
        cases fits
  have decodes := completed_eq_some.mp decodes
  have turned := completed_eq_some.mp turned
  obtain ⟨⟨progress, _⟩, lanes⟩ :=
    replays.same fits decoded decodes _ _ later goesOn terms report replayed turned member
  obtain ⟨model, first⟩ : ∃ model, tinyPremises.models[0]? = some model := ⟨_, rfl⟩
  exact ⟨answers, engine, ticket, preempted, decoded, later, report, replayed, served, found,
    replays, fits, decodes, goesOn, turned, member, progress,
    (lanes 0 ticket.primary model Ticket.lane?_zero first).1⟩

end Engine

end ContinuousBatching
