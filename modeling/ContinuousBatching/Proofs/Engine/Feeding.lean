/-
**Feeding.**

A step feeds a batch of running requests, one after the other, each of them on every replica in
turn. Every feeding takes the blocks that the request lacks at that place (`Cluster.want`), adds one
token to one lane, and leaves all other lanes, sequences and wants alone (`Cluster.Fed`).

During the loop the invariant is `Cluster.Feeding`: for every place there is a list of requests
still to be fed, they are ready, and together they lack no more blocks than are free. One feeding
takes the head off the list of its place (`Feeding.step`), so the whole batch is fed and no capacity
check made before it is ever contradicted:

* `prefillAll_meets`: every admitted request is fed its input;
* `decodeAll_meets`: every request that can go on is fed its last token.
-/

import ContinuousBatching.Engine.Step
import ContinuousBatching.Proofs.Engine.Rest

namespace ContinuousBatching.Cluster

variable {p : Premises} {c d : Cluster} {caches caches' : List PagedCache} {id : RequestId}
  {ticket : Ticket} {place : Nat} {lane : Lane} {cache : PagedCache}

/-- One lane of a running request was fed what came next, and committed a token. -/
structure Fed (p : Premises) (c d : Cluster) (caches caches' : List PagedCache) (id : RequestId)
    (place : Nat) : Prop where
  live : d.Live p caches'
  silent : c.Silent d
  running : d.scheduler.running = c.scheduler.running
  waiting : d.scheduler.waiting = c.scheduler.waiting
  own : ∃ ticket lane sample, c.scheduler.tickets.get? id = some ticket ∧
    ticket.lane? place = some lane ∧ d.scheduler.tickets.get? id =
      some (ticket.modifyLane place fun lane => lane.advanced sample)
  others : ∀ other, other ≠ id →
    d.scheduler.tickets.get? other = c.scheduler.tickets.get? other
  elsewhere : ∀ other cache', caches'[other]? = some cache' → other ≠ place →
    caches[other]? = some cache' ∧ ∀ id, d.want other cache' id = c.want other cache' id
  here : ∀ cache', caches'[place]? = some cache' → ∃ cache, caches[place]? = some cache ∧
    cache'.pool.freeCount + c.want place cache id = cache.pool.freeCount ∧
    ∀ other, other ≠ id → d.want place cache' other = c.want place cache other

/-- A lane afterwards is the lane that was fed, or it is what it was before. -/
theorem Fed.lane_cases {d e : Cluster} (fed : Fed p d e caches caches' id place)
    {other : RequestId} {held : Ticket} {place' : Nat} {lane' : Lane}
    (there : e.scheduler.tickets.get? other = some held)
    (lane_at' : held.lane? place' = some lane') :
    (other = id ∧ place' = place ∧ ∃ ticket lane sample,
      d.scheduler.tickets.get? id = some ticket ∧ ticket.lane? place = some lane ∧
        lane' = lane.advanced sample ∧ held.reported = ticket.reported) ∨
    (¬ (other = id ∧ place' = place) ∧ ∃ before,
      d.scheduler.tickets.get? other = some before ∧ before.lane? place' = some lane' ∧
        before.reported = held.reported) := by
  obtain ⟨ticket, lane, sample, found, lane_at, after⟩ := fed.own
  by_cases same : other = id
  · subst same
    rw [after] at there
    cases there
    rw [Ticket.lane?_modifyLane] at lane_at'
    by_cases here : place' = place
    · subst here
      rw [if_pos rfl, lane_at] at lane_at'
      cases lane_at'
      exact Or.inl ⟨rfl, rfl, ticket, lane, sample, found, lane_at, rfl,
        Ticket.reported_modifyLane⟩
    · rw [if_neg here] at lane_at'
      exact Or.inr ⟨fun both => here both.2, ticket, found, lane_at',
        Ticket.reported_modifyLane.symm⟩
  · rw [fed.others other same] at there
    exact Or.inr ⟨fun both => same both.1, held, there, lane_at', rfl⟩

/-- A scheduler that is about to commit a token to a lane, which may have taken the lane's pending
input already. -/
structure Taken (c e : Cluster) (id : RequestId) (ticket : Ticket) (place : Nat)
    (taken : Ticket) : Prop where
  found : e.scheduler.tickets.get? id = some taken
  consistent : e.scheduler.Consistent
  running : e.scheduler.running = c.scheduler.running
  waiting : e.scheduler.waiting = c.scheduler.waiting
  ids : e.scheduler.ids = c.scheduler.ids
  laneCount : e.scheduler.laneCount = c.scheduler.laneCount
  totals : e.scheduler.totals = c.scheduler.totals
  replicas : e.replicas = c.replicas
  delivered : e.delivered = c.delivered
  tickets : ∀ new, e.scheduler.tickets.insert id new = c.scheduler.tickets.insert id new
  commit : ∀ sample, (taken.modifyLane place fun lane => lane.commit sample) =
    ticket.modifyLane place fun lane => lane.advanced sample
  occupied : taken.occupied = ticket.occupied
  lane : ∃ lane, taken.lane? place = some lane

/-- What may need more than 64 bits when a lane is fed: the positions of its request, or those of
all running requests together. -/
def FeedOverflows (c : Cluster) (ticket : Ticket) (place : Nat) (lane : Lane) (stop : Stop) :
    Prop :=
  Overflows (ticket.request.inputLength + lane.committed.length) stop ∨
    ∃ sample, Overflows (c.scheduler.totals.occupied +
      ((ticket.modifyLane place fun lane => lane.advanced sample).occupied - ticket.occupied)) stop

/-- **After the commit** the lane was fed, in the cluster as a whole. -/
theorem Taken.fed (live : c.Live p caches) (runs : id ∈ c.scheduler.running)
    (found : c.scheduler.tickets.get? id = some ticket) (lane_at : ticket.lane? place = some lane)
    (cache_at : caches[place]? = some cache) {e d : Cluster} {taken : Ticket}
    (ready : Taken c e id ticket place taken) {sequence : SequenceId} {written : PagedSequence}
    {sample : Sample} (attached : ticket.primary.sequence = some sequence)
    (there : cache.sequences.get? sequence = some written)
    (follows : lane.Follows ticket.request written)
    (enough : written.lacks lane.next ≤ cache.pool.freeCount)
    (sampled : sample = cache.nextToken (written.context ++ tokenIds lane.next))
    (scheduler : d.scheduler = e.scheduler.committed id taken place sample)
    (consistent : d.scheduler.Consistent)
    (replicas : d.replicas =
      (caches.set place (cache.written sequence written lane.next)).map .paged)
    (delivered : d.delivered = e.delivered) :
    Fed p c d caches (caches.set place (cache.written sequence written lane.next)) id place := by
  have held := (Scheduler.sequenceOf?_of_found found).trans attached
  have kept : ∀ lane : Lane, (lane.advanced sample).sequence = lane.sequence := fun _ => rfl
  have tickets : d.scheduler.tickets = c.scheduler.tickets.insert id
      (ticket.modifyLane place fun lane => lane.advanced sample) := by
    rw [scheduler]
    show e.scheduler.tickets.insert id _ = _
    rw [ready.tickets, ready.commit]
  have now : d.scheduler.tickets.get? id =
      some (ticket.modifyLane place fun lane => lane.advanced sample) := by
    rw [tickets, Registry.get?_insert, if_pos rfl]
  have others : ∀ other, other ≠ id →
      d.scheduler.tickets.get? other = c.scheduler.tickets.get? other := fun other differ => by
    rw [tickets, Registry.get?_insert, if_neg differ]
  have running : d.scheduler.running = c.scheduler.running := by
    rw [scheduler]
    exact ready.running
  have waiting : d.scheduler.waiting = c.scheduler.waiting := by
    rw [scheduler]
    exact ready.waiting
  refine ⟨?_, ?_, running, waiting, ⟨ticket, lane, sample, found, lane_at, now⟩, others,
    fun other cache' there' differ => ?_, fun cache' there' => ?_⟩
  · refine live.advanced runs found lane_at cache_at attached there follows enough sampled
      consistent running waiting ?_ ?_ tickets replicas
    · rw [scheduler]
      exact ready.ids
    · rw [scheduler]
      exact ready.laneCount
  · refine Silent.put found ?_ tickets ?_ ?_ (delivered.trans ready.delivered)
    · simp only [Ticket.terms, Ticket.request_modifyLane, Ticket.reported_modifyLane,
        Ticket.finish_modifyLane, Ticket.abortRequested_modifyLane]
    · rw [scheduler]
      show e.scheduler.totals.prefillLength = _
      rw [ready.totals]
    · rw [scheduler]
      show e.scheduler.totals.decodeLength = _
      rw [ready.totals]
  · rw [List.getElem?_set_ne (Ne.symm differ)] at there'
    refine ⟨there', fun other' => ?_⟩
    by_cases same : other' = id
    · subst same
      rw [want_eq_lacksIn now, want_eq_lacksIn found]
      refine Ticket.lacksIn_congr ?_ (Ticket.primary_modifyLane_sequence kept) fun _ _ => rfl
      rw [Ticket.lane?_modifyLane, if_neg differ]
    · exact want_congr (others other' same) fun _ _ => rfl
  · rw [List.getElem?_set_self (List.getElem?_eq_some_iff.mp cache_at).1] at there'
    cases there'
    refine ⟨cache, cache_at, ?_, fun other differ =>
      want_congr (others other differ) fun kept attached' => ?_⟩
    · rw [want_of_found found lane_at attached there]
      exact PagedCache.freeCount_written enough
    · have apart : kept ≠ sequence := by
        rintro rfl
        exact differ (live.consistent.owner other id kept attached' held)
      rw [PagedCache.get?_written, if_neg apart]

/-- **Feeding and committing.** -/
theorem feed_meets (live : c.Live p caches) (runs : id ∈ c.scheduler.running)
    (found : c.scheduler.tickets.get? id = some ticket) (lane_at : ticket.lane? place = some lane)
    (cache_at : caches[place]? = some cache)
    (enough : c.want place cache id ≤ cache.pool.freeCount) {e : Cluster} (taken : Ticket)
    (ready : Taken c e id ticket place taken) {sequence : SequenceId}
    (attached : lane.sequence = some sequence) :
    Meets (feed id place sequence lane.next) e
      (fun _ d => ∃ caches', Fed p c d caches caches' id place)
      (fun stop _ => FeedOverflows c ticket place lane stop) := by
  obtain ⟨_, written, primary, own, there, follows⟩ := live.follows_at runs found lane_at cache_at
  cases attached.symm.trans own
  have member := List.mem_of_getElem? cache_at
  rw [want_of_found found lane_at primary there] at enough
  have replicas : e.replicas = caches.map .paged := ready.replicas.trans live.owned.replicas
  unfold feed
  rw [meets_bind, meets_onReplicas, replicas, meets_onReplica_forward cache_at]
  refine (PagedCache.forward_meets there lane.next).mono ?_ ?_
  · rintro sample _ ⟨_, sampled, rfl⟩
    rw [meets_bind, meets_onScheduler]
    refine (Scheduler.commit_meets ready.consistent id place sample).mono ?_ ?_
    · rintro _ _ ⟨other, _, there', fits, rfl⟩
      rw [ready.found] at there'
      cases there'
      exact ⟨_, ready.fed live runs found lane_at cache_at primary there follows enough sampled rfl
        (ready.consistent.committed (ready.running ▸ runs) ready.found fits) rfl rfl⟩
    · rintro _ _ (⟨rfl, ⟨rfl, idle⟩ | ⟨rfl, other, there', missing⟩⟩ | ⟨rfl, other, there', large⟩)
      · exact absurd (ready.running ▸ runs) idle
      · rw [ready.found] at there'
        cases there'
        obtain ⟨lane, present⟩ := ready.lane
        rw [missing] at present
        cases present
      · rw [ready.found] at there'
        cases there'
        rw [ready.commit, ready.occupied, ready.totals] at large
        exact Or.inr ⟨sample, rfl, large⟩
  · rintro _ _ (⟨_, _, short⟩ | ⟨rfl, large⟩ | ⟨_, zero⟩)
    · exact absurd enough (Nat.not_le_of_lt short)
    · rw [follows.length] at large
      exact Or.inl ⟨rfl, large⟩
    · rw [((live.owned.sound cache member).sized sequence written there).1] at zero
      exact absurd (live.divided member) (by omega)

theorem laneOf_of_found (lane_at : ticket.lane? place = some lane) :
    laneOf ticket place = .ok lane := by
  rw [laneOf, lane_at]

/-- **Feeding what is pending** on a lane of a running request. -/
theorem feedPending_meets (live : c.Live p caches) (runs : id ∈ c.scheduler.running)
    (found : c.scheduler.tickets.get? id = some ticket) (lane_at : ticket.lane? place = some lane)
    (cache_at : caches[place]? = some cache)
    (enough : c.want place cache id ≤ cache.pool.freeCount) (pending : lane.pending ≠ []) :
    Meets (feedPending id place) c (fun _ d => ∃ caches', Fed p c d caches caches' id place)
      (fun stop _ => FeedOverflows c ticket place lane stop) := by
  obtain ⟨sequence, _, _, attached, _⟩ := live.follows_at runs found lane_at cache_at
  unfold feedPending
  rw [meets_bind]
  refine find_meets found ?_
  rw [meets_bind, meets_liftM, laneOf_of_found lane_at, yields_ok, attached]
  dsimp only
  rw [meets_bind, meets_put, ← Lane.next_of_pending pending]
  refine feed_meets live runs found lane_at cache_at enough (ticket.modifyLane place Lane.fed) ?_
    attached
  have kept : ∀ lane : Lane, lane.fed.sequence = lane.sequence := fun _ => rfl
  refine ⟨?_, ?_, rfl, rfl, rfl, rfl, rfl, rfl, rfl, fun new => ?_, fun sample => ?_, ?_, ?_⟩
  · show (c.scheduler.tickets.insert id _).get? id = _
    rw [Registry.get?_insert, if_pos rfl]
  · exact live.consistent.modifyLane found kept fun _ => rfl
  · exact Registry.insert_insert _ _ _ _
  · exact Ticket.modifyLane_modifyLane
  · exact Ticket.occupied_modifyLane fun _ => rfl
  · exact ⟨lane.fed, by rw [Ticket.lane?_modifyLane, if_pos rfl, lane_at]; rfl⟩

/-- **Feeding the last token** on a lane of a running request that was fed before. -/
theorem feedLast_meets (live : c.Live p caches) (runs : id ∈ c.scheduler.running)
    (found : c.scheduler.tickets.get? id = some ticket) (lane_at : ticket.lane? place = some lane)
    (cache_at : caches[place]? = some cache)
    (enough : c.want place cache id ≤ cache.pool.freeCount) (drained : lane.Drained) :
    Meets (feedLast id place) c (fun _ d => ∃ caches', Fed p c d caches caches' id place)
      (fun stop _ => FeedOverflows c ticket place lane stop) := by
  obtain ⟨sequence, _, _, attached, _⟩ := live.follows_at runs found lane_at cache_at
  obtain ⟨last, final, next⟩ := drained.last
  unfold feedLast
  rw [meets_bind]
  refine find_meets found ?_
  rw [meets_bind, meets_liftM, laneOf_of_found lane_at, yields_ok, attached, final]
  dsimp only
  rw [← next]
  refine feed_meets live runs found lane_at cache_at enough ticket ?_ attached
  refine ⟨found, live.consistent, rfl, rfl, rfl, rfl, rfl, rfl, rfl, fun _ => rfl,
    fun sample => ?_, rfl, lane, lane_at⟩
  -- nothing is pending, so taking the pending input changes nothing
  refine Ticket.modifyLane_congr lane_at ?_
  rw [Lane.advanced, Lane.fed, ← drained.pending]

/-! ### The loop -/

/-- A batch in the middle of being fed: at each place these requests are still to be fed, and they
lack no more blocks than are free. -/
structure Feeding (p : Premises) (c : Cluster) (ready : Lane → Prop) (batch : List RequestId)
    (d : Cluster) (caches : List PagedCache) (todo : Nat → List RequestId) : Prop where
  live : d.Live p caches
  silent : c.Silent d
  running : d.scheduler.running = c.scheduler.running
  waiting : d.scheduler.waiting = c.scheduler.waiting
  runs : ∀ id ∈ batch, id ∈ c.scheduler.running
  part : ∀ place, (todo place).Sublist batch
  nodup : batch.Nodup
  level : ∀ id ticket place lane, d.scheduler.tickets.get? id = some ticket →
    ticket.lane? place = some lane →
    lane.committed.length =
      ticket.reported + if id ∈ batch ∧ id ∉ todo place then 1 else 0
  ready : ∀ id ticket place lane, d.scheduler.tickets.get? id = some ticket →
    ticket.lane? place = some lane → id ∈ todo place → ready lane
  drained : ∀ id ticket place lane, d.scheduler.tickets.get? id = some ticket →
    ticket.lane? place = some lane → id ∈ d.scheduler.running → id ∉ todo place → lane.Drained
  enough : ∀ place cache, caches[place]? = some cache →
    ((todo place).map (d.want place cache)).sum ≤ cache.pool.freeCount

namespace Feeding

variable {ready : Lane → Prop} {batch rest : List RequestId} {todo : Nat → List RequestId}

/-- What a running request occupies in the middle of being fed: its last token, if it is new, takes
no position yet. -/
theorem occupied_le (feeding : Feeding p c ready batch d caches todo)
    (found : d.scheduler.tickets.get? id = some ticket) : ticket.occupied ≤ d.extent id := by
  have level := feeding.level id ticket 0 ticket.primary found Ticket.lane?_zero
  rw [extent_of_found found, Ticket.occupied, level]
  split <;> omega

/-- The same after one more commit on a lane that is still to be fed. -/
theorem occupied_advanced_le (feeding : Feeding p c ready batch d caches todo)
    (found : d.scheduler.tickets.get? id = some ticket) (still : id ∈ todo place)
    (sample : Sample) :
    (ticket.modifyLane place fun lane => lane.advanced sample).occupied ≤ d.extent id := by
  cases place with
  | zero =>
      -- the token committed last takes a position now, the new one does not
      have level := feeding.level id ticket 0 ticket.primary found Ticket.lane?_zero
      rw [if_neg (fun both => both.2 still), Nat.add_zero] at level
      rw [extent_of_found found, Ticket.occupied]
      show ticket.request.inputLength + ((ticket.primary.advanced sample).committed.length - 1) ≤ _
      rw [Lane.length_advanced, level]
      exact Nat.le_refl _
  | succ other =>
      show ticket.occupied ≤ d.extent id
      exact feeding.occupied_le found

/-- Every length that is counted while a lane is fed is below the demand. -/
theorem overflows (feeding : Feeding p c ready batch d caches todo)
    (runs : id ∈ d.scheduler.running)
    (found : d.scheduler.tickets.get? id = some ticket) (lane_at : ticket.lane? place = some lane)
    (still : id ∈ todo place) {stop : Stop} (stopped : FeedOverflows d ticket place lane stop) :
    Overflows c.demand stop := by
  have consistent := feeding.live.consistent
  rw [← feeding.silent.demand]
  rcases stopped with positions | ⟨sample, occupied⟩
  · have level := feeding.level id ticket place lane found lane_at
    rw [if_neg (fun both => both.2 still), Nat.add_zero] at level
    rw [level, ← extent_of_found found] at positions
    exact positions.mono (Nat.le_of_lt (extent_lt_demand found))
  · -- the positions of the running requests, those of this one after the commit
    let after : RequestId → Nat := fun other =>
      if other = id then (ticket.modifyLane place fun lane => lane.advanced sample).occupied
      else d.scheduler.occupiedBy other
    have grows := ticket.occupied_le_advanced place sample
    have sum : (d.scheduler.running.map after).sum =
        d.scheduler.totals.occupied +
          ((ticket.modifyLane place fun lane => lane.advanced sample).occupied -
            ticket.occupied) := by
      have others : ((d.scheduler.running.erase id).map after).sum =
          ((d.scheduler.running.erase id).map d.scheduler.occupiedBy).sum :=
        sum_map_congr fun other member =>
          if_neg (consistent.nodup_running.mem_erase_iff.mp member).1
      have before := consistent.occupied
      rw [← List.sum_map_erase _ runs, Scheduler.occupiedBy_of_found found] at before
      rw [← List.sum_map_erase _ runs, others]
      simp only [after, if_true]
      omega
    have small : (d.scheduler.running.map after).sum < d.demand := by
      refine sum_lt_demand consistent.nodup_running (fun other member =>
        (consistent.known other).mp (List.mem_append_left _ member)) fun other member => ?_
      by_cases same : other = id
      · subst same
        simp only [after, if_true]
        exact feeding.occupied_advanced_le found still sample
      · obtain ⟨held, there⟩ := consistent.found_of_running member
        simp only [after, same, if_false]
        rw [Scheduler.occupiedBy_of_found there]
        exact feeding.occupied_le there
    exact occupied.mono (sum ▸ Nat.le_of_lt small)

/-- A batch begins to be fed between two steps. -/
theorem start {caches : List PagedCache} (live : c.Live p caches) (nodup : batch.Nodup)
    (runs : ∀ id ∈ batch, id ∈ c.scheduler.running)
    (level : ∀ id ticket, c.scheduler.tickets.get? id = some ticket →
      ∀ lane ∈ ticket.lanes, lane.committed.length = ticket.reported)
    (fit : ∀ id ∈ batch, ∀ ticket, c.scheduler.tickets.get? id = some ticket →
      ∀ lane ∈ ticket.lanes, ready lane)
    (drained : ∀ id ticket, c.scheduler.tickets.get? id = some ticket →
      id ∈ c.scheduler.running → id ∉ batch → ∀ lane ∈ ticket.lanes, lane.Drained)
    (enough : ∀ place cache, caches[place]? = some cache →
      (batch.map (c.want place cache)).sum ≤ cache.pool.freeCount) :
    Feeding p c ready batch c caches fun _ => batch where
  live := live
  silent := .refl c
  running := rfl
  waiting := rfl
  runs := runs
  part := fun _ => List.Sublist.refl batch
  nodup := nodup
  level := fun id ticket place lane found there => by
    rw [if_neg (fun both => both.2 both.1), level id ticket found lane (Ticket.lane_mem there),
      Nat.add_zero]
  ready := fun id ticket _ lane found there member =>
    fit id member ticket found lane (Ticket.lane_mem there)
  drained := fun id ticket _ lane found there running absent =>
    drained id ticket found running absent lane (Ticket.lane_mem there)
  enough := enough

/-- Places without a cache do not matter. -/
theorem congr {todo' : Nat → List RequestId} (feeding : Feeding p c ready batch d caches todo)
    (same : ∀ place, place < caches.length → todo' place = todo place)
    (part : ∀ place, (todo' place).Sublist batch) :
    Feeding p c ready batch d caches todo' := by
  have known : ∀ {id ticket place lane}, d.scheduler.tickets.get? id = some ticket →
      ticket.lane? place = some lane → todo' place = todo place := by
    intro id ticket place lane found lane_at
    obtain ⟨_, there⟩ := feeding.live.cache_at found lane_at
    exact same place (List.getElem?_eq_some_iff.mp there).1
  refine { feeding with part := part, level := ?_, ready := ?_, drained := ?_, enough := ?_ }
  · intro id ticket place lane found lane_at
    rw [known found lane_at]
    exact feeding.level id ticket place lane found lane_at
  · intro id ticket place lane found lane_at
    rw [known found lane_at]
    exact feeding.ready id ticket place lane found lane_at
  · intro id ticket place lane found lane_at
    rw [known found lane_at]
    exact feeding.drained id ticket place lane found lane_at
  · intro place cache there
    rw [same place (List.getElem?_eq_some_iff.mp there).1]
    exact feeding.enough place cache there

/-- **One feeding.** The request at the head of the list of its place was fed there. -/
theorem step {e : Cluster} (feeding : Feeding p c ready batch d caches todo)
    (head : todo place = id :: rest) (fed : Fed p d e caches caches' id place) :
    Feeding p c ready batch e caches' (Function.update todo place rest) := by
  have nodup : (id :: rest).Nodup := head ▸ feeding.nodup.sublist (feeding.part place)
  have absent : id ∉ rest := (List.nodup_cons.mp nodup).1
  have member : id ∈ batch := (feeding.part place).subset (head ▸ List.mem_cons_self)
  -- apart from this request at this place, the lists are the same
  have lists : ∀ {other place'}, ¬ (other = id ∧ place' = place) →
      (other ∈ Function.update todo place rest place' ↔ other ∈ todo place') := by
    intro other place' differ
    by_cases here : place' = place
    · subst here
      rw [Function.update_self, head, List.mem_cons, or_iff_right fun same => differ ⟨same, rfl⟩]
    · rw [Function.update_of_ne here]
  refine ⟨fed.live, feeding.silent.trans fed.silent, fed.running.trans feeding.running,
    fed.waiting.trans feeding.waiting, feeding.runs, fun place' => ?_, feeding.nodup,
    fun other held place' lane' there lane_at' => ?_,
    fun other held place' lane' there lane_at' still => ?_,
    fun other held place' lane' there lane_at' runs done => ?_, fun place' cache' there => ?_⟩
  · by_cases here : place' = place
    · subst here
      rw [Function.update_self]
      exact (List.sublist_cons_self id rest).trans (head ▸ feeding.part place')
    · rw [Function.update_of_ne here]
      exact feeding.part place'
  · rcases fed.lane_cases there lane_at' with
      ⟨rfl, rfl, ticket, lane, sample, found, lane_at, rfl, reported⟩ |
        ⟨differ, before, was, lane_was, reported⟩
    · have level := feeding.level other ticket place' lane found lane_at
      rw [head, if_neg (fun both => both.2 List.mem_cons_self)] at level
      rw [Function.update_self, if_pos ⟨member, absent⟩, Lane.length_advanced, reported]
      omega
    · simp only [lists differ, ← reported]
      exact feeding.level other before place' lane' was lane_was
  · rcases fed.lane_cases there lane_at' with ⟨rfl, rfl, _⟩ | ⟨differ, before, was, lane_was, _⟩
    · rw [Function.update_self] at still
      exact absurd still absent
    · exact feeding.ready other before place' lane' was lane_was ((lists differ).mp still)
  · rcases fed.lane_cases there lane_at' with
      ⟨rfl, rfl, _, lane, sample, _, _, rfl, _⟩ | ⟨differ, before, was, lane_was, _⟩
    · exact Lane.drained_advanced lane sample
    · exact feeding.drained other before place' lane' was lane_was (fed.running ▸ runs)
        (fun still => done ((lists differ).mpr still))
  · by_cases here : place' = place
    · subst here
      obtain ⟨cache, before, taken, kept⟩ := fed.here cache' there
      have enough := feeding.enough place' cache before
      have same : (rest.map (e.want place' cache')).sum =
          (rest.map (d.want place' cache)).sum :=
        sum_map_congr fun other still => kept other fun same => absent (same ▸ still)
      rw [head, List.map_cons, List.sum_cons] at enough
      rw [Function.update_self, same]
      omega
    · obtain ⟨before, kept⟩ := fed.elsewhere place' cache' there here
      have same : ((todo place').map (e.want place' cache')).sum =
          ((todo place').map (d.want place' cache')).sum :=
        sum_map_congr fun other _ => kept other
      rw [Function.update_of_ne here, same]
      exact feeding.enough place' cache' before

/-- A ticket is replaced by one with the same lanes and terms. -/
theorem put {e : Cluster} (new : Ticket) (feeding : Feeding p c ready batch d caches todo)
    (found : d.scheduler.tickets.get? id = some ticket) (lanes : new.lanes = ticket.lanes)
    (terms : new.terms = ticket.terms)
    (scheduler : e.scheduler =
      { d.scheduler with tickets := d.scheduler.tickets.insert id new })
    (replicas : e.replicas = d.replicas) (delivered : e.delivered = d.delivered) :
    Feeding p c ready batch e caches todo := by
  have live := feeding.live
  have primary : new.primary = ticket.primary := (List.cons.inj lanes).1
  have request : new.request = ticket.request := congrArg Terms.request terms
  have tickets : e.scheduler.tickets = d.scheduler.tickets.insert id new := by rw [scheduler]
  have running : e.scheduler.running = d.scheduler.running := by rw [scheduler]
  have same : ∀ {place}, new.lane? place = ticket.lane? place := by
    intro place
    rw [Ticket.lane?, Ticket.lane?, lanes]
  have silent : d.Silent e :=
    Silent.put found terms tickets (by rw [scheduler]) (by rw [scheduler]) delivered
  -- every ticket now has the lanes and the reported tokens of one before
  have before : ∀ {other held}, e.scheduler.tickets.get? other = some held →
      ∃ old, d.scheduler.tickets.get? other = some old ∧ old.reported = held.reported ∧
        ∀ place, held.lane? place = old.lane? place := by
    intro other held there
    rw [tickets, Registry.get?_insert] at there
    split at there
    · rename_i here
      cases there
      exact ⟨ticket, here ▸ found, (congrArg Terms.reported terms).symm, fun _ => same⟩
    · exact ⟨held, there, rfl, fun _ => rfl⟩
  have wants : ∀ place cache other, e.want place cache other = d.want place cache other := by
    intro place cache other
    by_cases here : other = id
    · subst here
      have now : e.scheduler.tickets.get? other = some new := by
        rw [tickets, Registry.get?_insert, if_pos rfl]
      rw [want_eq_lacksIn now, want_eq_lacksIn found]
      exact Ticket.lacksIn_congr same (by rw [primary]) fun _ _ => rfl
    · refine want_congr ?_ fun _ _ => rfl
      rw [tickets, Registry.get?_insert, if_neg here]
  refine ⟨live.replaced new found lanes request scheduler replicas, feeding.silent.trans silent,
    running.trans feeding.running, ?_, feeding.runs, feeding.part, feeding.nodup,
    fun other held place lane there lane_at => ?_,
    fun other held place lane there lane_at still => ?_,
    fun other held place lane there lane_at runs done => ?_, fun place cache there => ?_⟩
  · rw [scheduler]
    exact feeding.waiting
  · obtain ⟨old, was, reported, lanes⟩ := before there
    rw [lanes] at lane_at
    rw [← reported]
    exact feeding.level other old place lane was lane_at
  · obtain ⟨old, was, _, lanes⟩ := before there
    rw [lanes] at lane_at
    exact feeding.ready other old place lane was lane_at still
  · obtain ⟨old, was, _, lanes⟩ := before there
    rw [lanes] at lane_at
    exact feeding.drained other old place lane was lane_at (running ▸ runs) done
  · rw [sum_map_congr fun other _ => wants place cache other]
    exact feeding.enough place cache there

end Feeding

/-- An action that feeds a ready lane what comes next. -/
def Feeds (p : Premises) (ready : Lane → Prop)
    (feedOne : RequestId → Nat → Action Cluster Sample) : Prop :=
  ∀ {c : Cluster} {caches : List PagedCache} {id : RequestId} {ticket : Ticket} {place : Nat}
    {lane : Lane} {cache : PagedCache}, c.Live p caches → id ∈ c.scheduler.running →
    c.scheduler.tickets.get? id = some ticket → ticket.lane? place = some lane →
    caches[place]? = some cache → c.want place cache id ≤ cache.pool.freeCount → ready lane →
    Meets (feedOne id place) c (fun _ d => ∃ caches', Fed p c d caches caches' id place)
      (fun stop _ => FeedOverflows c ticket place lane stop)

/-- **A request is fed on every replica.** The places still to come are those at which it heads the
list. -/
theorem onEachPlace_meets {ready : Lane → Prop} {batch rest : List RequestId}
    {feedOne : RequestId → Nat → Action Cluster Sample} (feeds : Feeds p ready feedOne)
    (feeding : Feeding p c ready batch d caches fun _ => id :: rest) :
    Meets (onEachPlace (feedOne id)) d
      (fun _ e => ∃ caches', Feeding p c ready batch e caches' fun _ => rest)
      (fun stop _ => Overflows c.demand stop) := by
  have count : d.replicas.length = p.models.length := by
    rw [feeding.live.owned.replicas, List.length_map, feeding.live.length_caches]
  unfold onEachPlace
  rw [meets_bind, meets_get, count]
  let invariant : List Nat → Cluster → Prop := fun places e =>
    places.Nodup ∧ (∀ place ∈ places, place < p.models.length) ∧ ∃ caches',
      Feeding p c ready batch e caches' fun place => if place ∈ places then id :: rest else rest
  have part := feeding.part 0
  have start : invariant (List.range p.models.length) d := by
    refine ⟨List.nodup_range, fun _ member => List.mem_range.mp member, caches, feeding.congr ?_ ?_⟩
    · intro place bound
      rw [feeding.live.length_caches] at bound
      exact if_pos (List.mem_range.mpr bound)
    · intro place
      split
      · exact part
      · exact (List.sublist_cons_self id rest).trans part
  refine (Meets.forM invariant ?_ _ d start).mono (fun _ e ended => ?_) (fun _ _ stop => stop)
  · rintro place places e ⟨nodup, bounds, caches', feeding⟩
    have absent := (List.nodup_cons.mp nodup).1
    have head : (if place ∈ place :: places then id :: rest else rest) = id :: rest :=
      if_pos List.mem_cons_self
    have runs : id ∈ e.scheduler.running := by
      rw [feeding.running]
      exact feeding.runs id (part.subset List.mem_cons_self)
    have bound := bounds place List.mem_cons_self
    rw [← feeding.live.length_caches] at bound
    obtain ⟨ticket, found⟩ := feeding.live.consistent.found_of_running runs
    have there : caches'[place]? = some caches'[place] := List.getElem?_eq_getElem bound
    obtain ⟨lane, lane_at⟩ := feeding.live.lane_at found there
    have still : id ∈ if place ∈ place :: places then id :: rest else rest := by
      rw [head]
      exact List.mem_cons_self
    have enough := feeding.enough place _ there
    rw [head, List.map_cons, List.sum_cons] at enough
    rw [meets_discard]
    refine (feeds feeding.live runs found lane_at there (Nat.le_of_add_right_le enough)
      (feeding.ready id ticket place lane found lane_at still)).mono ?_ ?_
    · rintro _ e' ⟨caches'', fed⟩
      refine ⟨(List.nodup_cons.mp nodup).2, fun other member =>
        bounds other (List.mem_cons_of_mem _ member), caches'', ?_⟩
      convert feeding.step head fed using 1
      funext other
      by_cases here : other = place
      · subst here
        rw [Function.update_self, if_neg absent]
      · simp only [Function.update_of_ne here, List.mem_cons, here, false_or]
    · exact fun _ _ stopped => feeding.overflows runs found lane_at still stopped
  · obtain ⟨_, _, caches', feeding⟩ := ended
    exact ⟨caches', feeding⟩

/-- **Prefill.** Every request of a batch with pending input is fed it. -/
theorem prefillAll_meets {batch : List RequestId}
    (feeding : Feeding p c (fun lane => lane.pending ≠ []) batch d caches fun _ => batch) :
    Meets (batch.forM prefillOne) d
      (fun _ e => ∃ caches', Feeding p c (fun lane => lane.pending ≠ []) batch e caches'
        fun _ => [])
      (fun stop _ => Overflows c.demand stop) := by
  refine Meets.forM (fun rest e => ∃ caches',
    Feeding p c (fun lane => lane.pending ≠ []) batch e caches' fun _ => rest) ?_ batch d
    ⟨caches, feeding⟩
  rintro id rest e ⟨caches, feeding⟩
  unfold prefillOne
  rw [meets_bind]
  refine (onEachPlace_meets feedPending_meets feeding).mono ?_ (fun _ _ stop => stop)
  rintro _ e ⟨caches', fed⟩
  have runs : id ∈ e.scheduler.running := by
    rw [fed.running]
    exact feeding.runs id ((feeding.part 0).subset List.mem_cons_self)
  obtain ⟨ticket, found⟩ := fed.live.consistent.found_of_running runs
  rw [meets_bind, meets_onScheduler, Scheduler.markPrefilled, meets_bind]
  refine Scheduler.find_meets found ?_
  rw [Scheduler.meets_put, meets_record]
  exact ⟨caches', fed.put ticket.markPrefilled found rfl rfl rfl rfl rfl⟩

/-- **Decode.** Every request of a batch that was fed before is fed its last token. -/
theorem decodeAll_meets {batch : List RequestId}
    (feeding : Feeding p c Lane.Drained batch d caches fun _ => batch) :
    Meets (batch.forM decodeOne) d
      (fun _ e => ∃ caches', Feeding p c Lane.Drained batch e caches' fun _ => [])
      (fun stop _ => Overflows c.demand stop) := by
  refine Meets.forM (fun rest e => ∃ caches',
    Feeding p c Lane.Drained batch e caches' fun _ => rest) ?_ batch d ⟨caches, feeding⟩
  rintro id rest e ⟨caches, feeding⟩
  exact onEachPlace_meets feedLast_meets feeding

end ContinuousBatching.Cluster
