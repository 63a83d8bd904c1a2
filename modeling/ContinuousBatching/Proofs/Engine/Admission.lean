/-
**Admission between two steps.**

Blocks are only taken when inputs are fed, so the test for admission adds the requests up that it
accepted before. While requests are admitted nothing is fed, and what was reserved remains available
(`Cluster.Admitting`): the admitted requests together lack no more blocks than are free, on every
replica.

* `fitsReserved_yields`: the test compares exactly these sums;
* `Admitting.start_meets`: the request at the front has an id to give back, or there is one for
  every slot, so a start is never refused;
* `admitFitting_meets`: whoever is at the front in the end does not fit together with the admitted
  ones (`Cluster.Admitted`); so nobody is admitted exactly if the queue is closed
  (`Cluster.Closed`), and then nothing has changed.
-/

import ContinuousBatching.Engine.Step
import ContinuousBatching.Proofs.Engine.Rest

namespace ContinuousBatching.Cluster

variable {p : Premises} {c d : Cluster} {caches caches' : List PagedCache} {id : RequestId}
  {ticket : Ticket} {admitted rest : List RequestId}

/-- Nobody can be admitted: all slots are taken, nobody waits, or the first one does not fit. -/
def Closed (slots : Nat) (c : Cluster) (caches : List PagedCache) : Prop :=
  ∀ id rest, c.scheduler.waiting = id :: rest → c.scheduler.running.length < slots →
    ∃ cache ∈ caches, cache.pool.freeCount < c.extent id ⌈/⌉ cache.pool.blockSize

/-- These requests were admitted since the last step. -/
structure Admitting (p : Premises) (c : Cluster) (caches : List PagedCache)
    (admitted : List RequestId) (d : Cluster) (caches' : List PagedCache) : Prop where
  live : d.Live p caches'
  silent : c.Silent d
  running : d.scheduler.running = c.scheduler.running ++ admitted
  waiting : c.scheduler.waiting = admitted ++ d.scheduler.waiting
  level : ∀ id ticket, d.scheduler.tickets.get? id = some ticket →
    ∀ lane ∈ ticket.lanes, lane.committed.length = ticket.reported
  drained : ∀ id ticket, d.scheduler.tickets.get? id = some ticket →
    id ∈ c.scheduler.running → ∀ lane ∈ ticket.lanes, lane.Drained
  primed : ∀ id ticket, d.scheduler.tickets.get? id = some ticket →
    id ∉ c.scheduler.running → ∀ lane ∈ ticket.lanes, lane.Primed ticket.request
  enough : ∀ cache ∈ caches',
    (admitted.map fun id => c.extent id ⌈/⌉ cache.pool.blockSize).sum ≤
      cache.pool.freeCount
  unchanged : admitted = [] → d = c ∧ caches' = caches
  opened : admitted ≠ [] → ¬ c.Closed p.settings.maxRunning caches

/-- **The test for admission** compares the blocks of everything accepted so far with the free ones,
in every cache. -/
theorem fitsReserved_yields (divided : ∀ cache ∈ caches, 0 < cache.pool.blockSize)
    (reserved : List Nat) (ticket : Ticket) :
    Yields (fitsReserved reserved ticket (caches.map .paged))
      (fun result =>
        (result.1 = true ↔ ∀ cache ∈ caches,
          ((reserved ++ [positions ticket.primary.pending]).map fun length =>
            length ⌈/⌉ cache.pool.blockSize).sum ≤ cache.pool.freeCount) ∧
        (result.1 = true → result.2 = reserved ++ [positions ticket.primary.pending]))
      (Overflows (reserved ++ [positions ticket.primary.pending]).sum) := by
  unfold fitsReserved
  rw [yields_bind]
  refine (totalLength_yields _).mono ?_ ?_
  · rintro _ ⟨rfl, _⟩
    dsimp only
    rw [yields_bind]
    rw [allChecked_map]
    refine (allChecked_yields fun cache member =>
      (PagedCache.canFit_yields (divided cache member) _).mono (fun _ answer => answer)
        fun _ large => large.mono (PagedCache.sum_ceilDiv_le _ _)).mono ?_ (fun _ large => large)
    exact fun _ exact => ⟨exact, fun accepted => if_pos accepted⟩
  · rintro _ ⟨rfl, large⟩
    refine ⟨rfl, Nat.le_trans large ?_⟩
    rw [List.sum_append, List.sum_cons]
    omega

namespace Admitting

/-- Before anybody is admitted. -/
theorem start (rest : c.AtRest p caches) : c.Admitting p caches [] c caches where
  live := rest.live
  silent := .refl c
  running := (List.append_nil _).symm
  waiting := rfl
  level := fun id ticket found => (rest.settled id ticket found).level
  drained := fun id ticket found runs => (rest.settled id ticket found).drained runs
  primed := fun id ticket found idle => (rest.live.stands id ticket found).primed idle
  enough := fun _ _ => Nat.zero_le _
  unchanged := fun _ => ⟨rfl, rfl⟩
  opened := fun some => absurd rfl some

/-- Only the trace has changed. -/
theorem traced (admitting : c.Admitting p caches admitted d caches') (some : admitted ≠ [])
    (trace : Option Trace) : c.Admitting p caches admitted { d with trace := trace } caches' :=
  { admitting with
    live := admitting.live.congr rfl rfl
    silent := ⟨admitting.silent.terms, admitting.silent.keys, admitting.silent.prefillLength,
      admitting.silent.decodeLength, admitting.silent.delivered⟩
    unchanged := fun none => absurd none some }

/-- The pending input of the request at the front is everything it has. -/
theorem positions_front (admitting : c.Admitting p caches admitted d caches')
    (front : d.scheduler.waiting = id :: rest)
    (found : d.scheduler.tickets.get? id = some ticket) :
    positions ticket.primary.pending = c.extent id := by
  have idle : id ∉ c.scheduler.running := by
    intro runs
    refine admitting.live.consistent.not_waiting_of_running ?_ (front ▸ List.mem_cons_self)
    rw [admitting.running]
    exact List.mem_append_left _ runs
  have primed := admitting.primed id ticket found idle _ Ticket.primary_mem_lanes
  rw [primed.positions, admitting.level id ticket found _ Ticket.primary_mem_lanes,
    ← admitting.silent.extent, extent_of_found found]

/-- The running requests and the one at the front are different requests. -/
theorem extents_lt_demand (admitting : c.Admitting p caches admitted d caches')
    (front : d.scheduler.waiting = id :: rest) :
    ((d.scheduler.running ++ [id]).map c.extent).sum < c.demand := by
  have consistent := admitting.live.consistent
  have queue : (d.scheduler.running ++ [id]).Sublist
      (d.scheduler.running ++ d.scheduler.waiting) := by
    rw [front]
    exact (List.sublist_append_left [id] rest).append_left _
  refine sum_lt_demand (consistent.nodup.sublist queue) (fun other member => ?_)
    fun other _ => Nat.le_refl _
  rw [← admitting.silent.keys]
  exact (consistent.known other).mp (queue.subset member)

/-- The positions that are counted when the request at the front starts. -/
theorem occupied_lt_demand (admitting : c.Admitting p caches admitted d caches')
    (front : d.scheduler.waiting = id :: rest)
    (found : d.scheduler.tickets.get? id = some ticket) :
    d.scheduler.totals.occupied + ticket.occupied < c.demand := by
  have consistent := admitting.live.consistent
  have below : ∀ other ∈ d.scheduler.running ++ [id],
      d.scheduler.occupiedBy other ≤ c.extent other := by
    intro other _
    cases there : d.scheduler.tickets.get? other with
    | none =>
        rw [Scheduler.occupiedBy, there]
        exact Nat.zero_le _
    | some held =>
        rw [Scheduler.occupiedBy_of_found there, ← admitting.silent.extent, extent_of_found there,
          ← admitting.level other held there _ Ticket.primary_mem_lanes]
        exact Nat.add_le_add_left (Nat.sub_le _ _) _
  have sum := Nat.lt_of_le_of_lt (List.sum_le_sum below) (admitting.extents_lt_demand front)
  rw [List.map_append, List.sum_append, List.map_singleton, List.sum_cons, List.sum_nil,
    Nat.add_zero, Scheduler.occupiedBy_of_found found] at sum
  rwa [consistent.occupied]

/-- Apart from the sequence, lanes and terms are what they were before a request started. -/
theorem started_before {sequence : SequenceId} {other : RequestId} {held : Ticket}
    (found : d.scheduler.tickets.get? id = some ticket)
    (there : (d.scheduler.tickets.insert id (ticket.attachAll (some sequence))).get? other =
      some held) :
    ∃ old, d.scheduler.tickets.get? other = some old ∧ old.request = held.request ∧
      old.reported = held.reported ∧ ∀ lane ∈ held.lanes, ∃ before ∈ old.lanes,
        lane.committed = before.committed ∧ lane.pending = before.pending := by
  rw [Registry.get?_insert] at there
  split at there
  · rename_i here
    cases there
    refine ⟨ticket, here ▸ found, rfl, rfl, fun lane member => ?_⟩
    rw [Ticket.attachAll, Ticket.lanes_mapLanes] at member
    obtain ⟨before, was, rfl⟩ := List.mem_map.mp member
    exact ⟨before, was, rfl, rfl⟩
  · exact ⟨held, there, rfl, rfl, fun lane member => ⟨lane, member, rfl, rfl⟩⟩

/-- **One request more.** It was accepted and starts. -/
theorem started {sequence : SequenceId} {ids : SequenceIds}
    (admitting : c.Admitting p caches admitted d caches')
    (front : d.scheduler.waiting = id :: rest) (found : d.scheduler.tickets.get? id = some ticket)
    (unheld : ∀ other ∈ d.scheduler.running, d.scheduler.sequenceOf? other ≠ some sequence)
    (capacity : ids.capacity = d.scheduler.ids.capacity)
    (owned : (d.started caches' id ticket sequence ids).Owned
      (caches'.map fun cache => cache.registered sequence))
    (room : d.scheduler.running.length < p.settings.maxRunning)
    (fits : ∀ cache ∈ caches',
      ((admitted ++ [id]).map fun id => c.extent id ⌈/⌉ cache.pool.blockSize).sum ≤
        cache.pool.freeCount) :
    c.Admitting p caches (admitted ++ [id]) (d.started caches' id ticket sequence ids)
      (caches'.map fun cache => cache.registered sequence) := by
  have live := admitting.live
  have idle : id ∉ c.scheduler.running := by
    intro runs
    refine live.consistent.not_waiting_of_running ?_ (front ▸ List.mem_cons_self)
    rw [admitting.running]
    exact List.mem_append_left _ runs
  refine ⟨live.started front found unheld capacity owned, admitting.silent.trans ?_, ?_, ?_,
    fun other held there lane member => ?_, fun other held there runs lane member => ?_,
    fun other held there new lane member => ?_, fun cache member => ?_,
    fun none => absurd none (List.append_ne_nil_of_right_ne_nil _ (List.cons_ne_nil _ _)),
    fun _ closed => ?_⟩
  · have same : (ticket.attachAll (some sequence)).terms = ticket.terms := rfl
    exact Silent.put found same rfl rfl rfl rfl
  · show d.scheduler.running ++ [id] = _
    rw [admitting.running, List.append_assoc]
  · show _ = admitted ++ [id] ++ d.scheduler.waiting.tail
    rw [admitting.waiting, front, List.append_assoc]
    rfl
  · obtain ⟨old, was, _, reported, lanes⟩ := started_before found there
    obtain ⟨lane', member', committed, _⟩ := lanes lane member
    rw [committed, ← reported]
    exact admitting.level other old was lane' member'
  · obtain ⟨old, was, _, _, lanes⟩ := started_before found there
    obtain ⟨lane', member', committed, pending⟩ := lanes lane member
    have drained := admitting.drained other old was runs lane' member'
    exact ⟨pending.trans drained.pending, committed ▸ drained.committed⟩
  · obtain ⟨old, was, request, _, lanes⟩ := started_before found there
    obtain ⟨lane', member', committed, pending⟩ := lanes lane member
    have primed := admitting.primed other old was new lane' member'
    rw [Lane.Primed, pending, committed, Lane.committedTokens, committed, ← request]
    exact primed
  · obtain ⟨before, was, rfl⟩ := List.mem_map.mp member
    exact fits before was
  · -- the first request admitted did fit, and the one that starts now is behind it
    by_cases none : admitted = []
    · obtain ⟨rfl, rfl⟩ := admitting.unchanged none
      obtain ⟨cache, member, short⟩ := closed id rest front room
      have enough := fits cache member
      rw [none, List.nil_append, List.map_singleton, List.sum_cons] at enough
      omega
    · exact admitting.opened none closed

/-- **Starting** the request at the front, which fits. An id is never missing. -/
theorem start_meets (admitting : c.Admitting p caches admitted d caches')
    (front : d.scheduler.waiting = id :: rest) (found : d.scheduler.tickets.get? id = some ticket)
    (room : d.scheduler.running.length < p.settings.maxRunning)
    (fits : ∀ cache ∈ caches',
      ((admitted ++ [id]).map fun id => c.extent id ⌈/⌉ cache.pool.blockSize).sum ≤
        cache.pool.freeCount) :
    Meets (Cluster.start id) d
      (fun _ e => e.scheduler.waiting = rest ∧
        ∃ caches'', c.Admitting p caches (admitted ++ [id]) e caches'')
      (fun stop _ => Overflows c.demand stop) := by
  have live := admitting.live
  refine (Cluster.start_meets live.owned front found).mono ?_ ?_
  · rintro _ _ ⟨sequence, ids, capacity, unheld, rfl, owned⟩
    refine ⟨?_, _, admitting.started front found unheld capacity owned room fits⟩
    show d.scheduler.waiting.tail = rest
    rw [front, List.tail_cons]
  · rintro _ _ (⟨_, _, unattached, full⟩ | ⟨rfl, large⟩)
    · -- there are more ids than slots, and one slot is free
      have retentive : d.scheduler.Retentive := live.retained
      have held := Nat.le_trans full (retentive.length_live_le live.consistent front unattached)
      exact absurd (Nat.lt_of_lt_of_le room live.roomy) (Nat.not_lt_of_le held)
    · exact ⟨rfl, Nat.le_trans large (Nat.le_of_lt (admitting.occupied_lt_demand front found))⟩

end Admitting

/-- What admission ends in: these requests were admitted, and the next one in the queue has no slot,
or does not fit together with them. -/
structure Admitted (p : Premises) (c : Cluster) (caches : List PagedCache)
    (admitted : List RequestId) (d : Cluster) (caches' : List PagedCache) : Prop
    extends c.Admitting p caches admitted d caches' where
  full : ∀ id rest, d.scheduler.waiting = id :: rest →
    d.scheduler.running.length < p.settings.maxRunning → ∃ cache ∈ caches', cache.pool.freeCount <
      ((admitted ++ [id]).map fun id => c.extent id ⌈/⌉ cache.pool.blockSize).sum

/-- If nobody was admitted, the queue is closed. -/
theorem Admitted.closed (result : c.Admitted p caches admitted d caches') (none : admitted = []) :
    c.Closed p.settings.maxRunning caches := by
  subst none
  obtain ⟨rfl, rfl⟩ := result.unchanged rfl
  intro id rest front room
  obtain ⟨cache, member, short⟩ := result.full id rest front room
  rw [List.nil_append, List.map_singleton, List.sum_cons, List.sum_nil, Nat.add_zero] at short
  exact ⟨cache, member, short⟩

/-- **The test of the request at the front** is whether it fits together with those that were
admitted, whose extents are the notes. -/
theorem Admitting.test_yields (admitting : c.Admitting p caches admitted d caches')
    (front : d.scheduler.waiting = id :: rest)
    (found : d.scheduler.tickets.get? id = some ticket) :
    Yields (fitsReserved (admitted.map c.extent) ticket d.replicas)
      (fun answer => (answer.1 = true ↔ ∀ cache ∈ caches',
          ((admitted ++ [id]).map fun id =>
            c.extent id ⌈/⌉ cache.pool.blockSize).sum ≤ cache.pool.freeCount) ∧
        (answer.1 = true → answer.2 = (admitted ++ [id]).map c.extent))
      (Overflows c.demand) := by
  have live := admitting.live
  have reserved : admitted.map c.extent ++ [positions ticket.primary.pending] =
      (admitted ++ [id]).map c.extent := by
    rw [admitting.positions_front front found, List.map_append, List.map_singleton]
  have bounded : ((admitted ++ [id]).map c.extent).sum ≤ c.demand := by
    have demand := admitting.extents_lt_demand front
    rw [admitting.running, List.append_assoc, List.map_append, List.sum_append] at demand
    omega
  rw [live.owned.replicas]
  refine (fitsReserved_yields (fun cache member => live.divided member) _ ticket).mono ?_
    (fun _ large => ?_)
  · rintro answer ⟨exact, noted⟩
    simp only [reserved, List.map_map] at exact noted
    exact ⟨exact, noted⟩
  · rw [reserved] at large
    exact large.mono bounded

theorem startWhile_meets : ∀ (list admitted : List RequestId) (d : Cluster)
    (caches' : List PagedCache), c.Admitting p caches admitted d caches' →
    d.scheduler.waiting = list →
    Meets (startWhile p.settings.maxRunning fitsReserved (admitted.map c.extent) list) d
      (fun later e => ∃ caches'', c.Admitted p caches (admitted ++ later) e caches'')
      (fun stop _ => Overflows c.demand stop)
  | [], admitted, d, caches', admitting, empty => by
      refine ⟨caches', (List.append_nil admitted).symm ▸ ⟨admitting, fun id rest front => ?_⟩⟩
      rw [empty] at front
      cases front
  | id :: rest, admitted, d, caches', admitting, front => by
      refine startWhile_rule (fun turned => ⟨caches', (List.append_nil admitted).symm ▸
        ⟨admitting, fun first others front' room => ?_⟩⟩) (fun absent => ?_)
        (fun ticket stop found failed => (admitting.test_yields front found).of_error failed)
        fun ticket notes found room accepted => ?_
      · obtain ⟨ticket, notes, found, declined⟩ := turned room
        have short := ((admitting.test_yields front found).of_ok declined).1.not.mp
          Bool.false_ne_true
        rw [front] at front'
        cases front'
        simp only [not_forall, Nat.not_le] at short
        obtain ⟨cache, member, short⟩ := short
        exact ⟨cache, member, short⟩
      · obtain ⟨ticket, found⟩ := admitting.live.consistent.found_of_queued
          (List.mem_append_right d.scheduler.running (front ▸ List.mem_cons_self))
        cases absent.symm.trans found
      · obtain ⟨fits, noted⟩ := (admitting.test_yields front found).of_ok accepted
        obtain rfl : notes = (admitted ++ [id]).map c.extent := noted rfl
        refine (admitting.start_meets front found room (fits.mp rfl)).mono ?_
          (fun _ _ large => large)
        rintro _ e ⟨front', caches'', admitting'⟩
        refine (startWhile_meets rest (admitted ++ [id]) e caches'' admitting' front').mono ?_
          (fun _ _ large => large)
        rintro later e ⟨caches'', result⟩
        rw [List.append_assoc] at result
        exact ⟨caches'', result⟩

/-- **Admission.** What is admitted fits together, and a closed queue is left as it is. -/
theorem admitFitting_meets (rest : c.AtRest p caches) :
    Meets (admitFitting p.settings.maxRunning) c
      (fun admitted d => ∃ caches', c.Admitted p caches admitted d caches')
      (fun stop _ => Overflows c.demand stop) := by
  unfold admitFitting startWaiting
  rw [meets_bind, meets_bind, meets_get]
  refine (startWhile_meets c.scheduler.waiting [] c caches (.start rest) rfl).mono ?_
    (fun _ _ large => large)
  rintro admitted d ⟨caches', result⟩
  rw [List.nil_append] at result
  rw [meets_bind]
  by_cases none : admitted = []
  · subst none
    exact ⟨caches', result⟩
  · refine (recordAll_meets admitted .admitted d).mono ?_ (fun _ _ => False.elim)
    rintro _ _ ⟨trace, rfl⟩
    exact ⟨caches', result.toAdmitting.traced none trace, result.full⟩

end ContinuousBatching.Cluster
