/-
**What holds at every moment of a step.**

An engine works with models, a tokenizer and settings that never change (`Premises`). At every
moment of a step its cluster is in order, and each request stands where its lanes say
(`Cluster.Live`): the tokens of a lane are those that its model generates for the prompt alone, the
lanes of a waiting request are prepared for being fed everything, and those of a running request
follow their sequences. Requests that retained a sequence id wait in front of those that never ran.

Everything that happens to a cluster happens to one request at a time. `Live.change` says what has
to be shown about that request; the others keep their standing as long as their own sequences are
untouched. From it follow the rules for the single changes:

* `Live.put`, `Live.added`, `Live.dropped`: changes that touch no sequence;
* `Live.started`, `Live.preempted`, `Live.ended`, `Live.advanced`: a sequence is registered, removed
  or fed.
-/

import ContinuousBatching.Engine.Settings
import ContinuousBatching.Proofs.Request.Solo
import ContinuousBatching.Proofs.Scheduler.Retention

namespace ContinuousBatching

/-- What never changes about a cache. -/
structure CacheModel where
  nextToken : NextToken
  blockSize : Nat
  blockCount : Nat

/-- What never changes about this cache. -/
def PagedCache.model (cache : PagedCache) : CacheModel :=
  ⟨cache.nextToken, cache.pool.blockSize, cache.pool.blockCount⟩

/-- What an engine works with, and what is expected of it. -/
structure Premises where
  models : List CacheModel
  tokenizer : Tokenizer
  settings : EngineSettings
  replicated : models ≠ []
  divided : ∀ model ∈ models, 0 < model.blockSize
  /-- A text that cannot be decoded stops no step. -/
  lenient : ∀ tokens cause, tokenizer.decode tokens = .error cause → cause.isFatal = false

/-- What a ticket says about its request, the lanes left aside. -/
structure Terms where
  request : Request
  reported : Nat
  finish : Option FinishReason
  abortRequested : Bool
  deriving DecidableEq

/-- What this ticket says about its request. -/
def Ticket.terms (ticket : Ticket) : Terms :=
  ⟨ticket.request, ticket.reported, ticket.finish, ticket.abortRequested⟩

/-- A request stands where its lanes say. -/
structure Ticket.Stands (ticket : Ticket) (models : List CacheModel) (caches : List PagedCache)
    (runs : Prop) : Prop where
  laned : ticket.lanes.length = models.length
  asked : ticket.request.inputLength ≠ 0
  alone : ∀ place lane model, ticket.lane? place = some lane → models[place]? = some model →
    lane.Alone ticket.request model.nextToken
  primed : ¬ runs → ∀ lane ∈ ticket.lanes, lane.Primed ticket.request
  follows : runs → ∀ place lane cache sequence written, ticket.lane? place = some lane →
    caches[place]? = some cache → ticket.primary.sequence = some sequence →
    cache.sequences.get? sequence = some written → lane.Follows ticket.request written

namespace Cluster

/-- What is known about a request, its lanes left aside. -/
def terms? (c : Cluster) (id : RequestId) : Option Terms :=
  (c.scheduler.tickets.get? id).map Ticket.terms

/-- The cluster is in order and every request stands where its lanes say. -/
structure Live (p : Premises) (c : Cluster) (caches : List PagedCache) : Prop where
  owned : c.Owned caches
  models : caches.map PagedCache.model = p.models
  laneCount : c.scheduler.laneCount = p.models.length
  roomy : p.settings.maxRunning ≤ c.scheduler.ids.capacity
  storable : c.scheduler.ids.capacity ≤ Memory.tableLimit
  retained : c.scheduler.waiting.Pairwise fun first second =>
    c.scheduler.sequenceOf? first = none → c.scheduler.sequenceOf? second = none
  stands : ∀ id ticket, c.scheduler.tickets.get? id = some ticket →
    ticket.Stands p.models caches (id ∈ c.scheduler.running)

namespace Live

variable {p : Premises} {c d : Cluster} {caches caches' : List PagedCache} {id : RequestId}
  {ticket : Ticket} {sequence : SequenceId}

theorem consistent (live : c.Live p caches) : c.scheduler.Consistent := live.owned.consistent

theorem length_caches (live : c.Live p caches) : caches.length = p.models.length := by
  rw [← live.models, List.length_map]

/-- The model of the cache at a place. -/
theorem model_at (live : c.Live p caches) {place : Nat} {cache : PagedCache}
    (there : caches[place]? = some cache) : p.models[place]? = some cache.model := by
  rw [← live.models, List.getElem?_map, there]
  rfl

theorem divided (live : c.Live p caches) {cache : PagedCache} (member : cache ∈ caches) :
    0 < cache.pool.blockSize := by
  refine p.divided cache.model ?_
  rw [← live.models]
  exact List.mem_map_of_mem member

/-- There is a lane for the cache at a place. -/
theorem lane_at (live : c.Live p caches) (found : c.scheduler.tickets.get? id = some ticket)
    {place : Nat} {cache : PagedCache} (there : caches[place]? = some cache) :
    ∃ lane, ticket.lane? place = some lane := by
  have bound := (List.getElem?_eq_some_iff.mp there).1
  rw [live.length_caches, ← (live.stands id ticket found).laned] at bound
  exact ⟨_, List.getElem?_eq_getElem bound⟩

/-- There is a cache for the lane at a place. -/
theorem cache_at (live : c.Live p caches) (found : c.scheduler.tickets.get? id = some ticket)
    {place : Nat} {lane : Lane} (there : ticket.lane? place = some lane) :
    ∃ cache, caches[place]? = some cache := by
  have bound := (List.getElem?_eq_some_iff.mp there).1
  rw [(live.stands id ticket found).laned, ← live.length_caches] at bound
  exact ⟨_, List.getElem?_eq_getElem bound⟩

/-- The lane of a running request follows its sequence in the cache at that place. -/
theorem follows_at (live : c.Live p caches) (runs : id ∈ c.scheduler.running)
    (found : c.scheduler.tickets.get? id = some ticket) {place : Nat} {lane : Lane}
    {cache : PagedCache} (lane_at : ticket.lane? place = some lane)
    (cache_at : caches[place]? = some cache) :
    ∃ sequence written, ticket.primary.sequence = some sequence ∧
      lane.sequence = some sequence ∧ cache.sequences.get? sequence = some written ∧
      lane.Follows ticket.request written := by
  obtain ⟨sequence, attached⟩ := live.consistent.sequence_of_running runs found
  have held := (Scheduler.sequenceOf?_of_found found).trans attached
  obtain ⟨written, there⟩ := live.owned.found_of_running runs held cache
    (List.mem_of_getElem? cache_at)
  refine ⟨sequence, written, attached, ?_, there,
    (live.stands id ticket found).follows runs place lane cache sequence written lane_at cache_at
      attached there⟩
  rw [live.consistent.alike id ticket found lane (Ticket.lane_mem lane_at), attached]

/-! ### One request at a time -/

/-- **A change that concerns one request.** The others keep their tickets and stay where they are,
and the sequences of the other running requests are untouched. -/
theorem change (live : c.Live p caches) (id : RequestId) (owned : d.Owned caches')
    (models : caches'.map PagedCache.model = caches.map PagedCache.model)
    (laneCount : d.scheduler.laneCount = c.scheduler.laneCount)
    (capacity : d.scheduler.ids.capacity = c.scheduler.ids.capacity)
    (retained : d.scheduler.waiting.Pairwise fun first second =>
      d.scheduler.sequenceOf? first = none → d.scheduler.sequenceOf? second = none)
    (others : ∀ other, other ≠ id →
      d.scheduler.tickets.get? other = c.scheduler.tickets.get? other ∧
        (other ∈ d.scheduler.running ↔ other ∈ c.scheduler.running))
    (untouched : ∀ other held, other ≠ id → other ∈ c.scheduler.running →
      c.scheduler.sequenceOf? other = some held → ∀ (place : Nat) (cache' : PagedCache),
      caches'[place]? = some cache' → ∃ cache : PagedCache, caches[place]? = some cache ∧
        cache'.sequences.get? held = cache.sequences.get? held)
    (own : ∀ ticket, d.scheduler.tickets.get? id = some ticket →
      ticket.Stands p.models caches' (id ∈ d.scheduler.running)) : d.Live p caches' := by
  refine ⟨owned, models.trans live.models, laneCount.trans live.laneCount, capacity ▸ live.roomy,
    capacity ▸ live.storable, retained, fun other held found => ?_⟩
  by_cases same : other = id
  · subst same
    exact own held found
  · obtain ⟨tickets, runs⟩ := others other same
    rw [tickets] at found
    have stands := live.stands other held found
    refine ⟨stands.laned, stands.asked, stands.alone, fun idle => stands.primed (runs.not.mp idle),
      fun running place lane cache' sequence written lane_at cache_at attached there => ?_⟩
    have running := runs.mp running
    obtain ⟨cache, before, kept⟩ := untouched other sequence same running
      ((Scheduler.sequenceOf?_of_found found).trans attached) place cache' cache_at
    exact stands.follows running place lane cache sequence written lane_at before attached
      (kept ▸ there)

/-- A change that leaves the caches alone. -/
theorem change_tickets (live : c.Live p caches) (id : RequestId) (owned : d.Owned caches)
    (laneCount : d.scheduler.laneCount = c.scheduler.laneCount)
    (capacity : d.scheduler.ids.capacity = c.scheduler.ids.capacity)
    (retained : d.scheduler.waiting.Pairwise fun first second =>
      d.scheduler.sequenceOf? first = none → d.scheduler.sequenceOf? second = none)
    (others : ∀ other, other ≠ id →
      d.scheduler.tickets.get? other = c.scheduler.tickets.get? other ∧
        (other ∈ d.scheduler.running ↔ other ∈ c.scheduler.running))
    (own : ∀ ticket, d.scheduler.tickets.get? id = some ticket →
      ticket.Stands p.models caches (id ∈ d.scheduler.running)) : d.Live p caches :=
  live.change id owned rfl laneCount capacity retained others
    (fun _ _ _ _ _ _ cache there => ⟨cache, there, rfl⟩) own

/-- Nothing but the trace and what was delivered has changed. -/
theorem congr (live : c.Live p caches) (replicas : d.replicas = c.replicas)
    (scheduler : d.scheduler = c.scheduler) : d.Live p caches := by
  refine ⟨live.owned.congr replicas scheduler, live.models, ?_, ?_, ?_, ?_, ?_⟩
  · rw [scheduler]
    exact live.laneCount
  · rw [scheduler]
    exact live.roomy
  · rw [scheduler]
    exact live.storable
  · rw [scheduler]
    exact live.retained
  · rw [scheduler]
    exact live.stands

/-- A ticket is replaced by one with the same sequence. -/
theorem put {new : Ticket} (live : c.Live p caches)
    (found : c.scheduler.tickets.get? id = some ticket)
    (same : new.primary.sequence = ticket.primary.sequence) (replicas : d.replicas = c.replicas)
    (scheduler : d.scheduler.Consistent) (running : d.scheduler.running = c.scheduler.running)
    (waiting : d.scheduler.waiting = c.scheduler.waiting)
    (ids : d.scheduler.ids = c.scheduler.ids)
    (laneCount : d.scheduler.laneCount = c.scheduler.laneCount)
    (tickets : d.scheduler.tickets = c.scheduler.tickets.insert id new)
    (stands : new.Stands p.models caches (id ∈ c.scheduler.running)) : d.Live p caches := by
  have sequences : ∀ other, d.scheduler.sequenceOf? other = c.scheduler.sequenceOf? other :=
    fun other => by
      rw [Scheduler.sequenceOf?_of_insert tickets, same]
      split
      · rename_i here
        rw [here, Scheduler.sequenceOf?_of_found found]
      · rfl
  have owned := live.owned.put found same replicas scheduler running tickets
  refine live.change_tickets id owned laneCount (congrArg SequenceIds.capacity ids) ?_
    (fun other differ => ⟨?_, by rw [running]⟩) fun held there => ?_
  · exact Scheduler.Retentive.of_sublist live.retained (waiting ▸ List.Sublist.refl _)
      fun other _ => sequences other
  · rw [tickets, Registry.get?_insert, if_neg differ]
  · rw [tickets, Registry.get?_insert, if_pos rfl] at there
    cases there
    rw [running]
    exact stands

/-- A ticket is replaced by one with the same request and the same lanes. -/
theorem replaced (new : Ticket) (live : c.Live p caches)
    (found : c.scheduler.tickets.get? id = some ticket) (lanes : new.lanes = ticket.lanes)
    (request : new.request = ticket.request)
    (scheduler : d.scheduler = { c.scheduler with tickets := c.scheduler.tickets.insert id new })
    (replicas : d.replicas = c.replicas) : d.Live p caches := by
  have stands := live.stands id ticket found
  have primary : new.primary = ticket.primary := (List.cons.inj lanes).1
  have same : ∀ {place}, new.lane? place = ticket.lane? place := by
    intro place
    rw [Ticket.lane?, Ticket.lane?, lanes]
  have alike : new.Alike := by
    intro lane member
    rw [primary]
    exact live.consistent.alike id ticket found lane (lanes ▸ member)
  have occupied : new.occupied = ticket.occupied := by
    rw [Ticket.occupied, Ticket.occupied, primary, request]
  refine live.put found (by rw [primary]) replicas ?_ (by rw [scheduler]) (by rw [scheduler])
    (by rw [scheduler]) (by rw [scheduler]) (by rw [scheduler]) ⟨?_, ?_, ?_, ?_, ?_⟩
  · rw [scheduler]
    exact live.consistent.put_same found alike (by rw [primary]) occupied
  · rw [lanes]
    exact stands.laned
  · rw [request]
    exact stands.asked
  · rw [request]
    intro place lane model lane_at
    exact stands.alone place lane model (same ▸ lane_at)
  · rw [request, lanes]
    exact stands.primed
  · rw [request, primary]
    intro runs place lane cache sequence written lane_at
    exact stands.follows runs place lane cache sequence written (same ▸ lane_at)

/-- The request at the front of the waiting queue starts. -/
theorem started (live : c.Live p caches) {rest : List RequestId} {ids : SequenceIds}
    (front : c.scheduler.waiting = id :: rest) (found : c.scheduler.tickets.get? id = some ticket)
    (unheld : ∀ other ∈ c.scheduler.running, c.scheduler.sequenceOf? other ≠ some sequence)
    (capacity : ids.capacity = c.scheduler.ids.capacity)
    (owned : (c.started caches id ticket sequence ids).Owned
      (caches.map fun cache => cache.registered sequence)) :
    (c.started caches id ticket sequence ids).Live p
      (caches.map fun cache => cache.registered sequence) := by
  have stands := live.stands id ticket found
  have idle : id ∉ c.scheduler.running := fun runs =>
    live.consistent.not_waiting_of_running runs (front ▸ List.mem_cons_self)
  have retained : (c.scheduler.started id ticket sequence ids).Retentive :=
    Scheduler.Retentive.started live.retained live.consistent front
  refine live.change id owned ?_ rfl capacity retained (fun other differ => ⟨?_, ?_⟩)
    (fun other held differ runs attached place cache' there => ?_) fun new there => ?_
  · rw [List.map_map]
    rfl
  · show (c.scheduler.tickets.insert id _).get? other = _
    rw [Registry.get?_insert, if_neg differ]
  · show other ∈ c.scheduler.running ++ [id] ↔ _
    rw [List.mem_append, List.mem_singleton, or_iff_left differ]
  · rw [List.getElem?_map] at there
    obtain ⟨cache, before, rfl⟩ := Option.map_eq_some_iff.mp there
    refine ⟨cache, before, ?_⟩
    have apart : held ≠ sequence := by
      rintro rfl
      exact unheld other runs attached
    rw [PagedCache.get?_registered, if_neg apart]
  · replace there : (c.scheduler.tickets.insert id _).get? id = some new := there
    rw [Registry.get?_insert, if_pos rfl] at there
    cases there
    refine ⟨(List.length_map _).trans stands.laned, stands.asked,
      fun place lane model lane_at model_at => ?_, fun idle => ?_,
      fun _ place lane cache' held written lane_at cache_at attached there => ?_⟩
    · rw [Ticket.attachAll, Ticket.lane?_mapLanes] at lane_at
      obtain ⟨before, here, rfl⟩ := Option.map_eq_some_iff.mp lane_at
      have alone := stands.alone place before model here model_at
      exact ⟨alone.committed, alone.drafts⟩
    · exact absurd (List.mem_append_right c.scheduler.running List.mem_cons_self) idle
    · rw [Ticket.attachAll, Ticket.lane?_mapLanes] at lane_at
      obtain ⟨before, here, rfl⟩ := Option.map_eq_some_iff.mp lane_at
      rw [List.getElem?_map] at cache_at
      obtain ⟨cache, cache_at, rfl⟩ := Option.map_eq_some_iff.mp cache_at
      cases attached
      rw [PagedCache.get?_registered, if_pos rfl] at there
      cases there
      have primed := stands.primed idle before (Ticket.lane_mem here)
      have follows := Lane.Follows.ofPrimed primed stands.asked cache.pool.blockSize
      exact ⟨follows.context, follows.length⟩

/-- A sequence that only one request holds is removed; the sequences of the others stay. -/
theorem untouched_without (live : c.Live p caches)
    (held : c.scheduler.sequenceOf? id = some sequence)
    {other : RequestId} {kept : SequenceId} (differ : other ≠ id)
    (attached : c.scheduler.sequenceOf? other = some kept) {place : Nat} {cache' : PagedCache}
    (there : (caches.map fun cache => cache.without sequence)[place]? = some cache') :
    ∃ cache : PagedCache, caches[place]? = some cache ∧
      cache'.sequences.get? kept = cache.sequences.get? kept := by
  rw [List.getElem?_map] at there
  obtain ⟨cache, before, rfl⟩ := Option.map_eq_some_iff.mp there
  refine ⟨cache, before, ?_⟩
  have apart : kept ≠ sequence := by
    rintro rfl
    exact differ (live.consistent.owner other id kept attached held)
  rw [PagedCache.get?_without, if_neg apart]

theorem models_without (sequence : SequenceId) :
    (caches.map fun cache => cache.without sequence).map PagedCache.model =
      caches.map PagedCache.model := by
  rw [List.map_map]
  refine List.map_congr_left fun cache _ => ?_
  simp only [Function.comp_apply, PagedCache.model, PagedCache.nextToken_without,
    PagedCache.blockSize_without, PagedCache.blockCount_without]

/-- A running request that has tokens on every lane is preempted. -/
theorem preempted (live : c.Live p caches)
    (found : c.scheduler.tickets.get? id = some ticket)
    (attached : ticket.primary.sequence = some sequence)
    (tokens : ∀ lane ∈ ticket.lanes, lane.committed ≠ [])
    (runs : id ∈ c.scheduler.running)
    (owned : (c.preempted caches id ticket sequence).Owned
      (caches.map fun cache => cache.without sequence)) :
    (c.preempted caches id ticket sequence).Live p
      (caches.map fun cache => cache.without sequence) := by
  have stands := live.stands id ticket found
  have held := (Scheduler.sequenceOf?_of_found found).trans attached
  have idle : id ∉ c.scheduler.running.erase id := live.consistent.nodup_running.not_mem_erase
  have retained := Scheduler.Retentive.preempted live.retained live.consistent runs found
  refine live.change id owned (models_without sequence) rfl rfl retained
    (fun other differ => ⟨?_, ?_⟩)
    (fun other kept differ _ attached place cache' there =>
      live.untouched_without held differ attached there) fun new there => ?_
  · show (c.scheduler.tickets.insert id _).get? other = _
    rw [Registry.get?_insert, if_neg differ]
  · show other ∈ c.scheduler.running.erase id ↔ _
    rw [live.consistent.nodup_running.mem_erase_iff, and_iff_right differ]
  · replace there : (c.scheduler.tickets.insert id _).get? id = some new := there
    rw [Registry.get?_insert, if_pos rfl] at there
    cases there
    refine ⟨(List.length_map _).trans stands.laned, stands.asked,
      fun place lane model lane_at model_at => ?_, fun _ lane member => ?_,
      fun runs => absurd runs idle⟩
    · rw [Ticket.rewound, Ticket.lane?_mapLanes] at lane_at
      obtain ⟨before, here, rfl⟩ := Option.map_eq_some_iff.mp lane_at
      exact ⟨(stands.alone place before model here model_at).committed, rfl⟩
    · rw [Ticket.rewound, Ticket.lanes_mapLanes] at member
      obtain ⟨before, here, rfl⟩ := List.mem_map.mp member
      exact Lane.primed_rewound before ticket.request (tokens before here)

/-- A running request ends. -/
theorem ended (live : c.Live p caches) {ids : SequenceIds} (runs : id ∈ c.scheduler.running)
    (found : c.scheduler.tickets.get? id = some ticket)
    (attached : ticket.primary.sequence = some sequence) (frees : c.scheduler.Frees id ids)
    (owned : (c.ended caches id ticket sequence ids).Owned
      (caches.map fun cache => cache.without sequence)) :
    (c.ended caches id ticket sequence ids).Live p
      (caches.map fun cache => cache.without sequence) := by
  have held := (Scheduler.sequenceOf?_of_found found).trans attached
  refine live.change id owned (models_without sequence) rfl frees.capacity
    (Scheduler.Retentive.ended live.retained live.consistent runs) (fun other differ => ⟨?_, ?_⟩)
    (fun other kept differ _ attached place cache' there =>
      live.untouched_without held differ attached there) fun new there => ?_
  · show (c.scheduler.tickets.erase id).get? other = _
    rw [Registry.get?_erase, if_neg differ]
  · show other ∈ c.scheduler.running.erase id ↔ _
    rw [live.consistent.nodup_running.mem_erase_iff, and_iff_right differ]
  · replace there : (c.scheduler.tickets.erase id).get? id = some new := there
    rw [Registry.get?_erase, if_pos rfl] at there
    cases there

/-- A waiting request is forgotten. -/
theorem dropped (live : c.Live p caches) {ids : SequenceIds} (waits : id ∈ c.scheduler.waiting)
    (frees : c.scheduler.Frees id ids) (replicas : d.replicas = c.replicas)
    (scheduler : d.scheduler = c.scheduler.dropped id ids) : d.Live p caches := by
  have sequences : ∀ other, other ≠ id →
      d.scheduler.sequenceOf? other = c.scheduler.sequenceOf? other := fun other differ => by
    rw [scheduler, Scheduler.sequenceOf?_of_erase rfl, if_neg differ]
  have running : d.scheduler.running = c.scheduler.running := by
    rw [scheduler]
    rfl
  have tickets : d.scheduler.tickets = c.scheduler.tickets.erase id := by
    rw [scheduler]
    rfl
  have consistent := live.consistent.dropped waits frees
  refine live.change_tickets id
    (live.owned.of_scheduler replicas (scheduler ▸ consistent) running fun other runs => ?_)
    (by rw [scheduler]; rfl) (by rw [scheduler]; exact frees.capacity) ?_
    (fun other differ => ⟨?_, by rw [running]⟩) fun new there => ?_
  · refine sequences other fun same => ?_
    exact live.consistent.not_waiting_of_running (same ▸ runs) waits
  · rw [scheduler]
    exact Scheduler.Retentive.dropped live.retained live.consistent
  · rw [tickets, Registry.get?_erase, if_neg differ]
  · rw [tickets, Registry.get?_erase, if_pos rfl] at there
    cases there

/-- A new request waits. -/
theorem added (live : c.Live p caches) {request : Request}
    (fresh : request.id ∉ c.scheduler.tickets.keys) (asked : request.inputLength ≠ 0)
    (replicas : d.replicas = c.replicas)
    (scheduler : d.scheduler = c.scheduler.added request.id
      (.ofRequest request c.scheduler.laneCount)) : d.Live p caches := by
  have running : d.scheduler.running = c.scheduler.running := by
    rw [scheduler]
    rfl
  have tickets : d.scheduler.tickets = c.scheduler.tickets.insert request.id
      (.ofRequest request c.scheduler.laneCount) := by
    rw [scheduler]
    rfl
  have sequences : ∀ other, other ≠ request.id →
      d.scheduler.sequenceOf? other = c.scheduler.sequenceOf? other := fun other differ => by
    rw [Scheduler.sequenceOf?_of_insert tickets, if_neg differ]
  have unqueued : request.id ∉ c.scheduler.running ++ c.scheduler.waiting := fun queued =>
    fresh ((live.consistent.known _).mp queued)
  have consistent := live.consistent.added fresh
    (Ticket.alike_ofRequest request c.scheduler.laneCount) rfl
  have owned : d.Owned caches := by
    refine live.owned.of_scheduler replicas (scheduler ▸ consistent) running fun other runs => ?_
    exact sequences other fun same => unqueued (List.mem_append_left _ (same ▸ runs))
  refine live.change_tickets request.id owned (by rw [scheduler]; rfl) (by rw [scheduler]; rfl) ?_
    (fun other differ => ⟨?_, by rw [running]⟩) fun new there => ?_
  · rw [scheduler]
    exact Scheduler.Retentive.added live.retained live.consistent fresh rfl
  · rw [tickets, Registry.get?_insert, if_neg differ]
  · rw [tickets, Registry.get?_insert, if_pos rfl] at there
    cases there
    have positive := List.length_pos_iff.mpr p.replicated
    refine ⟨?_, asked, fun place lane model lane_at _ => ?_, fun _ lane member => ?_,
      fun runs => ?_⟩
    · show ((List.range (c.scheduler.laneCount - 1)).map _).length + 1 = _
      rw [List.length_map, List.length_range, live.laneCount]
      omega
    · obtain ⟨place, rfl⟩ := Ticket.lanes_ofRequest (Ticket.lane_mem lane_at)
      exact ⟨rfl, rfl⟩
    · obtain ⟨place, rfl⟩ := Ticket.lanes_ofRequest member
      rfl
    · rw [running] at runs
      exact absurd (List.mem_append_left _ runs) unqueued

/-- The ticket of a running request after a lane advanced and its sequence was written. -/
theorem stands_advanced {models : List CacheModel} {caches : List PagedCache} {runs : Prop}
    {place : Nat} {lane : Lane} {cache : PagedCache} {written : PagedSequence} {sample : Sample}
    (stands : ticket.Stands models caches runs) (running : runs)
    (lane_at : ticket.lane? place = some lane) (cache_at : caches[place]? = some cache)
    (model_at : models[place]? = some cache.model)
    (attached : ticket.primary.sequence = some sequence)
    (follows : lane.Follows ticket.request written)
    (sampled : sample = cache.nextToken (written.context ++ tokenIds lane.next)) :
    (ticket.modifyLane place fun lane => lane.advanced sample).Stands models
      (caches.set place (cache.written sequence written lane.next)) runs := by
  have same : (ticket.modifyLane place fun lane => lane.advanced sample).primary.sequence =
      ticket.primary.sequence := Ticket.primary_modifyLane_sequence fun _ => rfl
  refine ⟨?_, ?_, fun place' lane' model lane_at' model_at' => ?_, fun idle => absurd running idle,
    fun _ place' lane' cache' sequence' written' lane_at' cache_at' attached' there => ?_⟩
  · rw [Ticket.lanes_modifyLane, List.length_modify]
    exact stands.laned
  · rw [Ticket.request_modifyLane]
    exact stands.asked
  · rw [Ticket.request_modifyLane]
    rw [Ticket.lane?_modifyLane] at lane_at'
    by_cases here : place' = place
    · subst here
      rw [if_pos rfl, lane_at] at lane_at'
      cases lane_at'
      cases model_at.symm.trans model_at'
      have alone := stands.alone place' lane _ lane_at model_at
      exact alone.advance (sampled.trans (follows.sample cache.nextToken))
    · rw [if_neg here] at lane_at'
      exact stands.alone place' lane' model lane_at' model_at'
  · rw [Ticket.request_modifyLane]
    rw [same, attached] at attached'
    cases attached'
    rw [Ticket.lane?_modifyLane] at lane_at'
    by_cases here : place' = place
    · subst here
      rw [if_pos rfl, lane_at] at lane_at'
      cases lane_at'
      rw [List.getElem?_set_self (List.getElem?_eq_some_iff.mp cache_at).1] at cache_at'
      cases cache_at'
      rw [PagedCache.get?_written, if_pos rfl] at there
      cases there
      exact follows.advance _ sample
    · rw [if_neg here] at lane_at'
      rw [List.getElem?_set_ne (Ne.symm here)] at cache_at'
      exact stands.follows running place' lane' cache' _ written' lane_at' cache_at' attached there

/-- A lane of a running request is fed what comes next, and commits the sample. -/
theorem advanced (live : c.Live p caches) {place : Nat} {lane : Lane} {cache : PagedCache}
    {written : PagedSequence} {sample : Sample} (runs : id ∈ c.scheduler.running)
    (found : c.scheduler.tickets.get? id = some ticket) (lane_at : ticket.lane? place = some lane)
    (cache_at : caches[place]? = some cache) (attached : ticket.primary.sequence = some sequence)
    (there : cache.sequences.get? sequence = some written)
    (follows : lane.Follows ticket.request written)
    (enough : written.lacks lane.next ≤ cache.pool.freeCount)
    (sampled : sample = cache.nextToken (written.context ++ tokenIds lane.next))
    (scheduler : d.scheduler.Consistent) (running : d.scheduler.running = c.scheduler.running)
    (waiting : d.scheduler.waiting = c.scheduler.waiting)
    (ids : d.scheduler.ids = c.scheduler.ids)
    (laneCount : d.scheduler.laneCount = c.scheduler.laneCount)
    (tickets : d.scheduler.tickets = c.scheduler.tickets.insert id
      (ticket.modifyLane place fun lane => lane.advanced sample))
    (replicas : d.replicas =
      (caches.set place (cache.written sequence written lane.next)).map .paged) :
    d.Live p (caches.set place (cache.written sequence written lane.next)) := by
  have held := (Scheduler.sequenceOf?_of_found found).trans attached
  have same : (ticket.modifyLane place fun lane => lane.advanced sample).primary.sequence =
      ticket.primary.sequence := Ticket.primary_modifyLane_sequence fun _ => rfl
  have sequences : ∀ other, d.scheduler.sequenceOf? other = c.scheduler.sequenceOf? other :=
    fun other => by
      rw [Scheduler.sequenceOf?_of_insert tickets, same]
      split
      · rename_i here
        rw [here, Scheduler.sequenceOf?_of_found found]
      · rfl
  have owned : d.Owned (caches.set place (cache.written sequence written lane.next)) := by
    have fed : Owned { c with
        replicas := (caches.set place (cache.written sequence written lane.next)).map .paged }
        (caches.set place (cache.written sequence written lane.next)) :=
      live.owned.written cache_at there enough rfl rfl
    exact fed.of_scheduler replicas scheduler running fun other _ => sequences other
  refine live.change id owned ?_ laneCount (congrArg SequenceIds.capacity ids) ?_
    (fun other differ => ⟨?_, by rw [running]⟩)
    (fun other kept differ _ attached' place' cache' there' => ?_) fun new there' => ?_
  · obtain ⟨_, same⟩ := List.getElem?_eq_some_iff.mp cache_at
    have unchanged : (cache.written sequence written lane.next).model = caches[place].model := by
      rw [same]
      rfl
    rw [List.map_set, unchanged, ← List.map_set, List.set_getElem_self]
  · exact Scheduler.Retentive.of_sublist live.retained (waiting ▸ List.Sublist.refl _)
      fun other _ => sequences other
  · rw [tickets, Registry.get?_insert, if_neg differ]
  · by_cases here : place' = place
    · subst here
      rw [List.getElem?_set_self (List.getElem?_eq_some_iff.mp cache_at).1] at there'
      cases there'
      have apart : kept ≠ sequence := by
        rintro rfl
        exact differ (live.consistent.owner other id kept attached' held)
      exact ⟨cache, cache_at, by rw [PagedCache.get?_written, if_neg apart]⟩
    · rw [List.getElem?_set_ne (Ne.symm here)] at there'
      exact ⟨cache', there', rfl⟩
  · rw [tickets, Registry.get?_insert, if_pos rfl] at there'
    cases there'
    rw [running]
    exact stands_advanced (live.stands id ticket found) runs lane_at cache_at
      (live.model_at cache_at) attached follows sampled

end Live

end Cluster

end ContinuousBatching
