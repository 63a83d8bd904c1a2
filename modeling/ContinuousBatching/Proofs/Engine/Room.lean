/-
**Making room.**

A step that admits nobody lets the running requests go on that were not given up
(`Scheduler.spared`), one position each. As long as they do not fit, the last of them is preempted.
Each preemption frees a block on every replica, so whoever is left alone then fits: the only
request that is ever turned down is one that was alone from the start (`Cluster.Starved`).

* `Scheduler.select_eq`, `Scheduler.sequencesOf_eq`: what the queues are searched for is there;
* `decodeFits_yields`: the test compares the blocks that these requests lack with the free ones;
* `makeRoom_turn`: one turn of the loop, on any cluster;
* `makeRoom_rule`: what a loop that preempts the last request spared keeps;
* `makeRoom_meets`: after making room everybody left fits, unless somebody starved, and then
  nothing has changed;
* `Preempting.givenUp_of_none`: somebody is left to go on, unless everybody was given up.
-/

import ContinuousBatching.Engine.Step
import ContinuousBatching.Proofs.Engine.Rest

namespace ContinuousBatching

namespace Scheduler

variable {s : Scheduler} {id : RequestId}

/-- The running requests that were not given up. -/
def spared (s : Scheduler) : List RequestId := s.running.filter fun id => !s.givenUp id

/-- Requests that are known are selected by whether they were given up. -/
theorem select_eq (aborted : Bool) : ∀ {list : List RequestId},
    (∀ id ∈ list, ∃ ticket, s.tickets.get? id = some ticket) →
    s.select aborted list = .ok (list.filter fun id => s.givenUp id == aborted)
  | [], _ => rfl
  | id :: rest, known => by
      obtain ⟨ticket, found⟩ := known id List.mem_cons_self
      have later := select_eq aborted fun other member =>
        known other (List.mem_cons_of_mem _ member)
      rw [select, ticketOf_of_found found, later, List.filter_cons, givenUp_of_found found]
      show Except.ok (if ticket.abortRequested = aborted then _ else _) = _
      simp only [beq_iff_eq]

/-- The sequences of requests that are attached. -/
theorem sequencesOf_eq : ∀ {list : List RequestId},
    (∀ id ∈ list, s.sequenceOf? id ≠ none) →
    s.sequencesOf list = .ok (list.filterMap s.sequenceOf?)
  | [], _ => rfl
  | id :: rest, attached => by
      obtain ⟨sequence, held⟩ := Option.ne_none_iff_exists'.mp (attached id List.mem_cons_self)
      obtain ⟨ticket, found, primary⟩ := sequenceOf?_eq_some_iff.mp held
      have later := sequencesOf_eq fun other member =>
        attached other (List.mem_cons_of_mem _ member)
      rw [sequencesOf, ticketOf_of_found found, List.filterMap_cons_some held]
      dsimp only [bind, Except.bind]
      rw [primary]
      dsimp only
      rw [later]
      rfl

theorem decodable_eq (consistent : s.Consistent) : s.decodable = .ok s.spared := by
  have known := fun (id : RequestId) (runs : id ∈ s.running) => consistent.found_of_running runs
  rw [decodable, select_eq false known, spared]
  simp only [beq_false]

/-- The request that is preempted next is the last one spared. -/
theorem victim?_eq (s : Scheduler) : s.victim? = s.spared.getLast? := by
  have victim : s.victim? = (s.running.reverse.filter fun id => !s.givenUp id).head? :=
    (List.head?_filter ..).symm
  rwa [List.filter_reverse, List.head?_reverse] at victim

/-- A scheduler that spares somebody has somebody to preempt: the last one spared. -/
theorem victim?_of_spared (spared : s.spared ≠ []) :
    ∃ id, s.victim? = some id ∧ id ∈ s.spared :=
  ⟨_, (victim?_eq s).trans (List.getLast?_eq_some_getLast spared), List.getLast_mem spared⟩

end Scheduler

namespace Cluster

variable {p : Premises} {c d : Cluster} {caches caches' : List PagedCache} {id : RequestId}
  {ticket : Ticket} {preempted : List RequestId}

theorem givenUp_eq (c : Cluster) (id : RequestId) :
    c.scheduler.givenUp id = (c.terms? id).any Terms.abortRequested := by
  rw [Scheduler.givenUp, terms?, Option.any_map]
  rfl

theorem Silent.givenUp (silent : c.Silent d) : d.scheduler.givenUp = c.scheduler.givenUp := by
  funext id
  rw [givenUp_eq, givenUp_eq, silent.terms]

/-- One request alone cannot go on: nobody else runs who was not given up, and in a cache without
free blocks its last block is full. -/
def Starved (c : Cluster) (caches : List PagedCache) : Prop :=
  ∃ id, c.scheduler.spared = [id] ∧ ∃ cache ∈ caches,
    cache.pool.freeCount = 0 ∧ (c.extent id - 1) % cache.pool.blockSize = 0

/-- All running requests were fed, and no lane is ahead of what was reported. -/
structure Decoding (p : Premises) (d : Cluster) (caches : List PagedCache) : Prop where
  live : d.Live p caches
  level : ∀ id ticket, d.scheduler.tickets.get? id = some ticket →
    ∀ lane ∈ ticket.lanes, lane.committed.length = ticket.reported
  drained : ∀ id ticket, d.scheduler.tickets.get? id = some ticket →
    id ∈ d.scheduler.running → ∀ lane ∈ ticket.lanes, lane.Drained

namespace Decoding

theorem ofAtRest (rest : c.AtRest p caches) : c.Decoding p caches where
  live := rest.live
  level := fun id ticket found => (rest.settled id ticket found).level
  drained := fun id ticket found => (rest.settled id ticket found).drained

/-- A running request lacks a block exactly if its positions fill its blocks. -/
theorem want_eq (decoding : d.Decoding p caches) (runs : id ∈ d.scheduler.running) {place : Nat}
    {cache : PagedCache} (there : caches[place]? = some cache) :
    d.want place cache id = if (d.extent id - 1) % cache.pool.blockSize = 0 then 1 else 0 := by
  have live := decoding.live
  obtain ⟨ticket, found⟩ := live.consistent.found_of_running runs
  obtain ⟨lane, lane_at⟩ := live.lane_at found there
  have member := Ticket.lane_mem lane_at
  have drained := decoding.drained id ticket found runs lane member
  have level := decoding.level id ticket found lane member
  have positive := List.length_pos_iff.mpr drained.committed
  rw [live.want_of_drained runs found lane_at there drained, level, extent_of_found found,
    Nat.add_sub_assoc (level ▸ positive)]

theorem want_le_one (decoding : d.Decoding p caches) (runs : id ∈ d.scheduler.running) {place : Nat}
    {cache : PagedCache} (there : caches[place]? = some cache) : d.want place cache id ≤ 1 := by
  rw [decoding.want_eq runs there]
  split <;> omega

/-- What the sequence of a running request lacks for one position is what the request lacks. -/
theorem lacksOne_eq (decoding : d.Decoding p caches) (runs : id ∈ d.scheduler.running) {place : Nat}
    {cache : PagedCache} (there : caches[place]? = some cache) :
    ∃ sequence written, d.scheduler.sequenceOf? id = some sequence ∧
      cache.sequences.get? sequence = some written ∧
      written.table.length + 1 = d.extent id ∧
      cache.lacksOne sequence = d.want place cache id := by
  have live := decoding.live
  obtain ⟨ticket, found⟩ := live.consistent.found_of_running runs
  obtain ⟨lane, lane_at⟩ := live.lane_at found there
  have member := Ticket.lane_mem lane_at
  have drained := decoding.drained id ticket found runs lane member
  have level := decoding.level id ticket found lane member
  obtain ⟨sequence, written, attached, _, known, follows⟩ :=
    live.follows_at runs found lane_at there
  have length := follows.length
  rw [drained.positions_next, level, ← extent_of_found found] at length
  refine ⟨sequence, written, (Scheduler.sequenceOf?_of_found found).trans attached, known, length,
    ?_⟩
  rw [PagedCache.lacksOne_of_found known, want_of_found found lane_at attached known,
    PagedSequence.lacks, drained.positions_next]

/-- The sequence of a running request has a position at least, so its removal frees a block. -/
theorem freeCount_without_pos (decoding : d.Decoding p caches) (runs : id ∈ d.scheduler.running)
    {sequence : SequenceId} (held : d.scheduler.sequenceOf? id = some sequence)
    {cache : PagedCache} (member : cache ∈ caches) :
    0 < (cache.without sequence).pool.freeCount := by
  have live := decoding.live
  obtain ⟨ticket, found⟩ := live.consistent.found_of_running runs
  obtain ⟨place, there⟩ := List.mem_iff_getElem?.mp member
  obtain ⟨_, written, same, known, length, _⟩ := decoding.lacksOne_eq runs there
  cases held.symm.trans same
  have sound := live.owned.sound cache member
  have primary : ticket.primary ∈ ticket.lanes := Ticket.primary_mem_lanes
  have tokens := List.length_pos_iff.mpr (decoding.drained id ticket found runs _ primary).committed
  have level := decoding.level id ticket found _ primary
  have asked := (live.stands id ticket found).asked
  rw [extent_of_found found] at length
  have blocks := Count.ceilDiv_pos (live.divided member) (show 0 < written.table.length by omega)
  rw [PagedCache.freeCount_without sound known, (sound.sized sequence written known).2]
  omega

/-- **The test of a batch** compares the blocks that its requests lack with the free ones, in every
cache. -/
theorem decodeFits_yields (decoding : d.Decoding p caches) {batch : List RequestId}
    (nodup : batch.Nodup) (runs : ∀ id ∈ batch, id ∈ d.scheduler.running) :
    Yields (d.decodeFits batch)
      (fun answer => answer = true ↔ ∀ place cache, caches[place]? = some cache →
        (batch.map (d.want place cache)).sum ≤ cache.pool.freeCount)
      (Overflows d.demand) := by
  have live := decoding.live
  have attached : ∀ id ∈ batch, d.scheduler.sequenceOf? id ≠ none := fun id member =>
    live.consistent.attached id (runs id member)
  have known : ∀ id ∈ batch, id ∈ d.scheduler.tickets.keys := fun id member =>
    (live.consistent.known id).mp (List.mem_append_left _ (runs id member))
  have lacks : ∀ place cache, caches[place]? = some cache →
      ((batch.filterMap d.scheduler.sequenceOf?).map cache.lacksOne).sum =
        (batch.map (d.want place cache)).sum := by
    intro place cache there
    refine sum_filterMap fun id member => ?_
    obtain ⟨sequence, _, held, _, _, equal⟩ := decoding.lacksOne_eq (runs id member) there
    exact ⟨sequence, held, equal⟩
  have test : ∀ cache ∈ caches,
      Yields (cache.canDecode (batch.filterMap d.scheduler.sequenceOf?))
        (fun answer => answer = true ↔
          ((batch.filterMap d.scheduler.sequenceOf?).map cache.lacksOne).sum ≤
            cache.pool.freeCount)
        (Overflows d.demand) := by
    intro cache member
    obtain ⟨place, there⟩ := List.mem_iff_getElem?.mp member
    have there' : ∀ sequence ∈ batch.filterMap d.scheduler.sequenceOf?,
        sequence ∈ cache.sequences.keys := by
      intro sequence held
      obtain ⟨id, here, attached⟩ := List.mem_filterMap.mp held
      exact Registry.mem_keys_iff.mpr
        (live.owned.found_of_running (runs id here) attached cache member)
    refine (PagedCache.canDecode_yields (live.owned.sound cache member) (live.divided member)
      _).mono (fun _ answer => answer.trans (and_iff_right there')) ?_
    · rintro stop (sum | ⟨sequence, held, written, found, positions⟩)
      · rw [Nat.zero_add, lacks place cache there] at sum
        -- a block holds a position at least, and whoever runs takes one
        refine sum.mono (Nat.le_of_lt (sum_lt_demand nodup known fun id here => ?_))
        have one := decoding.want_le_one (runs id here) there
        obtain ⟨_, written, _, _, length, _⟩ := decoding.lacksOne_eq (runs id here) there
        omega
      · obtain ⟨id, here, attached⟩ := List.mem_filterMap.mp held
        obtain ⟨_, _, held, there', length, _⟩ := decoding.lacksOne_eq (runs id here) there
        cases attached.symm.trans held
        cases found.symm.trans there'
        obtain ⟨ticket, known⟩ := live.consistent.found_of_running (runs id here)
        rw [length] at positions
        exact positions.mono (Nat.le_of_lt (extent_lt_demand known))
  unfold decodeFits
  rw [yields_bind, Scheduler.sequencesOf_eq attached, yields_ok, live.owned.replicas,
    allChecked_map]
  refine (allChecked_yields test).mono (fun answer exact => exact.trans ⟨?_, ?_⟩)
    (fun _ large => large)
  · intro fits place cache there
    rw [← lacks place cache there]
    exact fits cache (List.mem_of_getElem? there)
  · intro fits cache member
    obtain ⟨place, there⟩ := List.mem_iff_getElem?.mp member
    rw [lacks place cache there]
    exact fits place cache there

/-- **A running request is preempted.** Nothing is reported, and the other running requests can go
on. -/
theorem preempt_meets (decoding : d.Decoding p caches) (runs : id ∈ d.scheduler.running)
    (found : d.scheduler.tickets.get? id = some ticket) :
    Meets (preempt id) d
      (fun _ e => ∃ sequence, ticket.primary.sequence = some sequence ∧
        e = d.preempted caches id ticket sequence ∧
        e.Decoding p (caches.map fun cache => cache.without sequence) ∧ d.Silent e)
      (fun _ _ => False) := by
  have live := decoding.live
  have drained := decoding.drained id ticket found runs
  refine (Cluster.preempt_meets live.owned runs found).mono ?_ ?_
  · rintro _ _ ⟨sequence, attached, rfl, owned⟩
    have terms : ticket.rewound.terms = ticket.terms := rfl
    have tokens : ∀ lane ∈ ticket.lanes, lane.committed ≠ [] := fun lane member =>
      (drained lane member).committed
    refine ⟨sequence, attached, rfl, ⟨live.preempted found attached tokens runs owned,
      fun other held there lane member => ?_, fun other held there runs' => ?_⟩,
      Silent.put found terms rfl rfl rfl rfl⟩
    · replace there : (d.scheduler.tickets.insert id ticket.rewound).get? other = some held := there
      rw [Registry.get?_insert] at there
      split at there
      · cases there
        rw [Ticket.rewound, Ticket.lanes_mapLanes] at member
        obtain ⟨before, was, rfl⟩ := List.mem_map.mp member
        exact decoding.level id ticket found before was
      · exact decoding.level other held there lane member
    · -- a request that runs afterwards is another one, and its ticket is the same
      obtain ⟨differ, runs⟩ := live.consistent.nodup_running.mem_erase_iff.mp runs'
      replace there : (d.scheduler.tickets.insert id ticket.rewound).get? other = some held := there
      rw [Registry.get?_insert, if_neg differ] at there
      exact decoding.drained other held there runs
  · rintro _ _ ⟨_, lane, member, pending | none, _⟩
    · exact pending (drained lane member).pending
    · exact (drained lane member).committed none

end Decoding

/-- Requests were preempted since the last step, the last one first. -/
structure Preempting (p : Premises) (c : Cluster) (caches : List PagedCache)
    (preempted : List RequestId) (d : Cluster) (caches' : List PagedCache) : Prop
    extends d.Decoding p caches' where
  silent : c.Silent d
  running : d.scheduler.running.Sublist c.scheduler.running
  left : ∀ id ∈ c.scheduler.running, id ∉ d.scheduler.running → c.scheduler.givenUp id = false
  freed : preempted ≠ [] → ∀ cache ∈ caches', 0 < cache.pool.freeCount
  unchanged : preempted = [] → d = c ∧ caches' = caches
  opened : preempted ≠ [] → ¬ c.Starved caches
  kept : preempted ≠ [] → d.scheduler.spared ≠ []

namespace Preempting

theorem start (rest : c.AtRest p caches) : c.Preempting p caches [] c caches where
  toDecoding := .ofAtRest rest
  silent := .refl c
  running := List.Sublist.refl _
  left := fun _ runs idle => absurd runs idle
  freed := fun some => absurd rfl some
  unchanged := fun _ => ⟨rfl, rfl⟩
  opened := fun some => absurd rfl some
  kept := fun some => absurd rfl some

/-- **One preemption.** One of several requests spared makes room; the others spared remain. -/
theorem preempt_meets (preempting : c.Preempting p caches preempted d caches')
    (spared : id ∈ d.scheduler.spared) (crowd : 1 < d.scheduler.spared.length) :
    Meets (preempt id) d
      (fun _ e => e.scheduler.spared.length + 1 = d.scheduler.spared.length ∧
        ∃ caches'', c.Preempting p caches (preempted ++ [id]) e caches'')
      (fun _ _ => False) := by
  have consistent := preempting.live.consistent
  have nodup := consistent.nodup_running
  have runs : id ∈ d.scheduler.running := List.mem_of_mem_filter spared
  obtain ⟨ticket, found⟩ := consistent.found_of_running runs
  refine (preempting.toDecoding.preempt_meets runs found).mono ?_ (fun _ _ => False.elim)
  rintro _ _ ⟨sequence, attached, rfl, decoding, silent⟩
  have fewer : (d.preempted caches' id ticket sequence).scheduler.spared.length + 1 =
      d.scheduler.spared.length := by
    show ((d.scheduler.running.erase id).filter _).length + 1 =
      (d.scheduler.running.filter _).length
    rw [silent.givenUp]
    have perm := (List.perm_cons_erase runs).filter fun id => !d.scheduler.givenUp id
    rw [List.filter_cons, if_pos (List.mem_filter.mp spared).2] at perm
    exact perm.length_eq.symm
  refine ⟨fewer, _, ⟨decoding, preempting.silent.trans silent, ?_, fun other was gone => ?_,
    fun _ cache member => ?_, fun none => ?_, fun _ => ?_, fun _ => ?_⟩⟩
  · exact List.erase_sublist.trans preempting.running
  · by_cases runs : other ∈ d.scheduler.running
    · have victim : other = id := by
        by_contra differ
        exact gone (nodup.mem_erase_iff.mpr ⟨differ, runs⟩)
      rw [victim, ← preempting.silent.givenUp]
      exact Bool.not_eq_true' _ ▸ (List.mem_filter.mp spared).2
    · exact preempting.left other was runs
  · obtain ⟨before, was, rfl⟩ := List.mem_map.mp member
    have held := (Scheduler.sequenceOf?_of_found found).trans attached
    exact preempting.toDecoding.freeCount_without_pos runs held was
  · exact absurd none (List.append_ne_nil_of_right_ne_nil _ (List.cons_ne_nil _ _))
  · by_cases none : preempted = []
    · rintro ⟨other, lone, _⟩
      rw [(preempting.unchanged none).1, lone] at crowd
      exact Nat.lt_irrefl 1 crowd
    · exact preempting.opened none
  · exact List.length_pos_iff.mp (by omega)

/-- A batch that does not fit starves if it is a single request, which only happens before
anybody is preempted. -/
theorem starved (preempting : c.Preempting p caches preempted d caches')
    (few : d.scheduler.spared.length ≤ 1)
    (short : ¬ ∀ place cache, caches'[place]? = some cache →
      (d.scheduler.spared.map (d.want place cache)).sum ≤ cache.pool.freeCount) :
    preempted = [] ∧ c.Starved caches := by
  simp only [not_forall, Nat.not_le] at short
  obtain ⟨place, cache, there, short⟩ := short
  have member := List.mem_of_getElem? there
  have lone : ∃ id, d.scheduler.spared = [id] := by
    refine List.length_eq_one_iff.mp (Nat.le_antisymm few (List.length_pos_iff.mpr ?_))
    intro none
    rw [none] at short
    exact Nat.not_lt_zero _ short
  obtain ⟨id, lone⟩ := lone
  have runs : id ∈ d.scheduler.running :=
    List.mem_of_mem_filter (show id ∈ d.scheduler.spared from lone ▸ List.mem_cons_self)
  have want := preempting.toDecoding.want_eq runs there
  rw [lone, List.map_singleton, List.sum_cons, List.sum_nil, Nat.add_zero, want] at short
  have first : preempted = [] := by
    by_contra some
    have free := preempting.freed some cache member
    split at short <;> omega
  obtain ⟨rfl, rfl⟩ := preempting.unchanged first
  split at short
  · rename_i full
    exact ⟨first, id, lone, cache, member, by omega, full⟩
  · omega

/-- A batch that fits does not starve. -/
theorem not_starved (preempting : c.Preempting p caches preempted d caches')
    (fits : ∀ place cache, caches'[place]? = some cache →
      (d.scheduler.spared.map (d.want place cache)).sum ≤ cache.pool.freeCount) :
    ¬ c.Starved caches := by
  by_cases none : preempted = []
  · obtain ⟨rfl, rfl⟩ := preempting.unchanged none
    rintro ⟨id, lone, cache, member, exhausted, full⟩
    obtain ⟨place, there⟩ := List.mem_iff_getElem?.mp member
    have runs : id ∈ d.scheduler.running :=
      List.mem_of_mem_filter (show id ∈ d.scheduler.spared from lone ▸ List.mem_cons_self)
    have enough := fits place cache there
    rw [lone, List.map_singleton, List.sum_cons, List.sum_nil, Nat.add_zero,
      preempting.toDecoding.want_eq runs there, if_pos full] at enough
    omega
  · exact preempting.opened none

theorem decodable_eq (preempting : c.Preempting p caches preempted d caches') :
    d.scheduler.decodable = .ok d.scheduler.spared :=
  Scheduler.decodable_eq preempting.live.consistent

theorem decodeFits_yields (preempting : c.Preempting p caches preempted d caches') :
    Yields (d.decodeFits d.scheduler.spared)
      (fun answer => answer = true ↔ ∀ place cache, caches'[place]? = some cache →
        (d.scheduler.spared.map (d.want place cache)).sum ≤ cache.pool.freeCount)
      (Overflows c.demand) := by
  rw [← preempting.silent.demand]
  exact preempting.toDecoding.decodeFits_yields
    (preempting.live.consistent.nodup_running.sublist List.filter_sublist)
    fun _ member => List.mem_of_mem_filter member

end Preempting

/-- Nobody is left to go on only where everybody who ran was given up. -/
theorem Preempting.givenUp_of_none (preempting : c.Preempting p caches preempted d caches')
    (none : d.scheduler.spared = []) (runs : id ∈ c.scheduler.running) :
    c.scheduler.givenUp id = true := by
  have first : preempted = [] := by
    by_contra some
    exact preempting.kept some none
  rw [(preempting.unchanged first).1] at none
  have given := List.filter_eq_nil_iff.mp none id runs
  rwa [Bool.not_eq_true, Bool.not_eq_false'] at given

/-- What making room ends in: everybody spared fits. -/
structure Roomy (p : Premises) (c : Cluster) (caches : List PagedCache)
    (preempted : List RequestId) (d : Cluster) (caches' : List PagedCache) : Prop
    extends c.Preempting p caches preempted d caches' where
  fits : ∀ place cache, caches'[place]? = some cache →
    (d.scheduler.spared.map (d.want place cache)).sum ≤ cache.pool.freeCount

/-- **One turn of the loop that makes room.** If those who can go on fit, it is the last one. If
they do not, the last of several is preempted, as long as requests may be preempted at all. -/
theorem makeRoom_turn {victims : Nat} {done : List RequestId → Cluster → Prop}
    {stopped : Stop → Cluster → Prop}
    (unlisted : ∀ stop, d.scheduler.decodable = .error stop → stopped stop d)
    (untested : ∀ batch stop, d.scheduler.decodable = .ok batch →
      d.decodeFits batch = .error stop → stopped stop d)
    (refuses : ∀ batch, d.scheduler.decodable = .ok batch → d.decodeFits batch = .ok false →
      victims = 0 ∨ batch.length ≤ 1 → stopped (.refused .outOfBlocks) d)
    (fits : ∀ batch, d.scheduler.decodable = .ok batch → d.decodeFits batch = .ok true →
      done [] d)
    (sends : ∀ batch more, victims = more + 1 → d.scheduler.decodable = .ok batch →
      d.decodeFits batch = .ok false → 1 < batch.length →
      Meets preemptLast d
        (fun victim e => Meets (makeRoom more) e (fun later => done (victim :: later)) stopped)
        stopped) :
    Meets (makeRoom victims) d done stopped := by
  cases victims with
  | zero =>
      unfold makeRoom
      rw [meets_bind, meets_get, meets_bind, meets_liftM]
      cases listed : d.scheduler.decodable with
      | error stop => exact unlisted stop listed
      | ok batch =>
          rw [yields_ok, meets_bind, meets_liftM]
          cases tested : d.decodeFits batch with
          | error stop => exact untested batch stop listed tested
          | ok answer =>
              cases answer with
              | true => exact fits batch listed tested
              | false => exact refuses batch listed tested (Or.inl rfl)
  | succ more =>
      unfold makeRoom
      rw [meets_bind, meets_get, meets_bind, meets_liftM]
      cases listed : d.scheduler.decodable with
      | error stop => exact unlisted stop listed
      | ok batch =>
          rw [yields_ok, meets_bind, meets_liftM]
          cases tested : d.decodeFits batch with
          | error stop => exact untested batch stop listed tested
          | ok answer =>
              cases answer with
              | true => exact fits batch listed tested
              | false =>
                  rw [yields_ok, if_neg Bool.false_ne_true]
                  by_cases lone : batch.length ≤ 1
                  · rw [if_pos lone]
                    exact refuses batch listed tested (Or.inr lone)
                  · rw [if_neg lone, meets_bind]
                    refine (sends batch more rfl listed tested (Nat.lt_of_not_le lone)).mono ?_
                      (fun _ _ stop => stop)
                    intro victim e others
                    rw [meets_bind]
                    exact others

/-- **The loop that makes room.** An invariant tells which requests are spared. If they fit, it has
to come to what is wanted in the end; if they do not, it has to justify the refusal for a single
one, and to be kept by the preemption of the last of several. The induction is on the number of
requests that may be preempted, which is no less than the number of those spared. -/
theorem makeRoom_rule (invariant done : List RequestId → Cluster → Prop)
    {stopped : Stop → Cluster → Prop}
    (batch : ∀ preempted d, invariant preempted d →
      d.scheduler.decodable = .ok d.scheduler.spared)
    (test : ∀ preempted d, invariant preempted d → Yields (d.decodeFits d.scheduler.spared)
      (fun answer => (answer = true → done preempted d) ∧
        (answer = false → d.scheduler.spared.length ≤ 1 → stopped (.refused .outOfBlocks) d) ∧
        (answer = false → 1 < d.scheduler.spared.length → ∀ id,
          d.scheduler.victim? = some id → Meets (preempt id) d
            (fun _ e => e.scheduler.spared.length < d.scheduler.spared.length ∧
              invariant (preempted ++ [id]) e) stopped))
      (fun stop => stopped stop d))
    (victims : Nat) (preempted : List RequestId) (d : Cluster) (kept : invariant preempted d)
    (few : d.scheduler.spared.length ≤ victims) :
    Meets (makeRoom victims) d (fun later e => done (preempted ++ later) e) stopped := by
  have listed := batch preempted d kept
  refine makeRoom_turn (fun stop unlisted => ?_) (fun ids stop listed' failed => ?_)
    (fun ids listed' short reason => ?_) (fun ids listed' fit => ?_)
    fun ids more fewer listed' short crowd => ?_
  · cases listed.symm.trans unlisted
  all_goals cases listed.symm.trans listed'
  · exact (test preempted d kept).of_error failed
  · refine ((test preempted d kept).of_ok short).2.1 rfl (reason.elim (fun none => ?_) id)
    exact Nat.le_trans few (Nat.le_trans (Nat.le_of_eq none) (Nat.zero_le 1))
  · rw [List.append_nil]
    exact ((test preempted d kept).of_ok fit).1 rfl
  · have some : d.scheduler.spared ≠ [] :=
      List.length_pos_iff.mp (Nat.lt_trans Nat.one_pos crowd)
    obtain ⟨victim, chosen, _⟩ := Scheduler.victim?_of_spared some
    refine preemptLast_rule (fun nobody => ?_) fun victim chosen => ?_
    · cases nobody.symm.trans chosen
    · refine (((test preempted d kept).of_ok short).2.2 rfl crowd victim chosen).mono ?_
        (fun _ _ reason => reason)
      rintro _ e ⟨fewer, kept⟩
      refine (makeRoom_rule invariant done batch test more (preempted ++ [victim]) e kept
        (by omega)).mono (fun later e ended => ?_) (fun _ _ reason => reason)
      rw [List.append_assoc] at ended
      exact ended
termination_by victims
decreasing_by omega

/-- **Making room** leaves requests that fit, or it is refused because somebody starved. -/
theorem makeRoom_meets (rest : c.AtRest p caches) :
    Meets (makeRoom c.scheduler.running.length) c
      (fun preempted d => ∃ caches', c.Roomy p caches preempted d caches')
      (fun stop d => Overflows c.demand stop ∨
        (stop = .refused .outOfBlocks ∧ d = c ∧ c.Starved caches ∧
          c.decodeFits c.scheduler.spared = .ok false)) := by
  refine makeRoom_rule (fun preempted d => ∃ caches', c.Preempting p caches preempted d caches')
    (fun preempted d => ∃ caches', c.Roomy p caches preempted d caches') ?_ ?_
    c.scheduler.running.length [] c ⟨caches, .start rest⟩ (List.length_filter_le ..)
  · rintro preempted d ⟨caches', preempting⟩
    exact preempting.decodable_eq
  · rintro preempted d ⟨caches', preempting⟩
    refine preempting.decodeFits_yields.with_run.mono ?_ (fun _ large => Or.inl large)
    rintro answer ⟨exact, asked⟩
    refine ⟨fun fits => ⟨caches', preempting, exact.mp fits⟩, fun short few => ?_,
      fun _ crowd id chosen => ?_⟩
    · subst short
      obtain ⟨first, starved⟩ := preempting.starved few (exact.not.mp Bool.false_ne_true)
      obtain ⟨rfl, rfl⟩ := preempting.unchanged first
      exact Or.inr ⟨rfl, rfl, starved, asked⟩
    · have spared := List.mem_of_getLast? ((Scheduler.victim?_eq _).symm.trans chosen)
      refine (preempting.preempt_meets spared crowd).mono ?_ (fun _ _ => False.elim)
      rintro _ e ⟨fewer, preempting⟩
      exact ⟨by omega, preempting⟩

end Cluster

end ContinuousBatching
