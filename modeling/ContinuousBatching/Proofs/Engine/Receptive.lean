/-
**What an interruption leaves behind.**

A step may be refused in the middle, when a text cannot be decoded at all, and whatever it did
before stays done: requests were admitted, fed or preempted, and not all of them have reported. Some
things hold of a cluster nevertheless (`Cluster.Receptive`), and they are all that the next
admission relies on: the bookkeeping and the caches agree, whoever retained a sequence id waits at
the front, and whoever waits is going to be fed everything.

* `Receptive.change`: a change that concerns one request;
* `startWhile_receptive`, `feedPending_receptive`, `report_receptive` and others: each part of a
  step leaves the cluster receptive, also if it is refused;
* `step_receptive`: so does a step;
* `Engine.receptive_served`: and so does every call that an engine answers.
-/

import ContinuousBatching.Proofs.Engine.Precedence
import ContinuousBatching.Proofs.Scheduler.Seats

namespace ContinuousBatching

namespace Ticket

/-- The request is going to be fed everything: its input and the tokens that it has. -/
def StartsOver (ticket : Ticket) : Prop :=
  positions ticket.primary.pending =
    ticket.request.inputLength + ticket.primary.committed.length

theorem startsOver_ofRequest (request : Request) (replicas : Nat) :
    (ofRequest request replicas).StartsOver := rfl

theorem startsOver_rewound (ticket : Ticket) : ticket.rewound.StartsOver := by
  show positions (replay ticket.request.inputs ticket.primary.committedTokens) = _
  rw [positions_replay, Lane.committedTokens, List.length_map]
  rfl

theorem StartsOver.congr {ticket next : Ticket} (startsOver : ticket.StartsOver)
    (request : next.request = ticket.request) (primary : next.primary = ticket.primary) :
    next.StartsOver := by
  rw [StartsOver, request, primary]
  exact startsOver

end Ticket

/-- Feeding does not divide a cache anew. -/
theorem PagedCache.forward_blockSize (id : SequenceId) (chunks : List Chunk) (cache : PagedCache) :
    Meets (PagedCache.forward id chunks) cache
      (fun _ next => next.pool.blockSize = cache.pool.blockSize)
      (fun stop next => ∀ cause, stop = .refused cause →
        next.pool.blockSize = cache.pool.blockSize) := by
  cases found : cache.sequences.get? id with
  | none =>
      unfold Meets
      rw [forward_of_absent found]
      exact fun _ _ => rfl
  | some sequence =>
      refine (forward_meets found chunks).mono ?_ ?_
      · rintro _ _ ⟨_, _, rfl⟩
        rfl
      · rintro _ _ (⟨_, rfl, _⟩ | ⟨rfl, _⟩ | ⟨rfl, _⟩) cause refused
        · rfl
        · cases refused
        · cases refused

namespace Cluster

variable {capacity : Nat} {c d : Cluster} {caches : List PagedCache} {id : RequestId}
  {ticket : Ticket} {α β : Type}

/-- Admission can go on with this cluster and so many sequence ids. -/
structure Receptive (capacity : Nat) (c : Cluster) : Prop where
  inOrder : c.InOrder
  retentive : c.scheduler.Retentive
  capacity : c.scheduler.ids.capacity = capacity
  startsOver : ∀ id ∈ c.scheduler.waiting, ∀ ticket,
    c.scheduler.tickets.get? id = some ticket → ticket.StartsOver
  divided : ∀ cache ∈ c.caches, 0 < cache.pool.blockSize

/-- The action leaves the cluster receptive, also if it is refused. -/
def KeepsReceptive (capacity : Nat) (action : Action Cluster α) (c : Cluster) : Prop :=
  Meets action c (fun _ d => d.Receptive capacity)
    (fun stop d => ∀ cause, stop = .refused cause → d.Receptive capacity)

/-- A cluster without requests and with fresh caches is receptive. -/
theorem receptive_ofReplicas (fresh : ∀ cache ∈ caches, cache.IsFresh)
    (divided : ∀ cache ∈ caches, 0 < cache.pool.blockSize) (lanes capacity : Nat) :
    (ofReplicas (caches.map .paged) lanes (.ofCapacity capacity)).Receptive capacity := by
  have owned := owned_ofReplicas fresh lanes capacity
  refine ⟨⟨caches, owned⟩, List.Pairwise.nil, rfl,
    fun _ waits => absurd waits List.not_mem_nil, ?_⟩
  rw [owned.caches_eq]
  exact divided

/-! ### One request at a time -/

namespace Receptive

theorem nodup_waiting (receptive : c.Receptive capacity) : c.scheduler.waiting.Nodup := by
  obtain ⟨_, owned⟩ := receptive.inOrder
  exact owned.consistent.nodup_waiting

/-- **A change that concerns one request.** -/
theorem change (receptive : c.Receptive capacity) (id : RequestId) (evolves : c.Evolves d)
    (divided : ∀ cache ∈ d.caches, 0 < cache.pool.blockSize)
    (others : ∀ other ∈ d.scheduler.waiting, other ≠ id → other ∈ c.scheduler.waiting ∧
      d.scheduler.tickets.get? other = c.scheduler.tickets.get? other)
    (own : id ∈ d.scheduler.waiting → ∀ ticket, d.scheduler.tickets.get? id = some ticket →
      ticket.StartsOver) : d.Receptive capacity := by
  obtain ⟨retentive, same⟩ := evolves.retentive receptive.retentive
  refine ⟨evolves.inOrder, retentive, same.trans receptive.capacity,
    fun other waits ticket found => ?_, divided⟩
  by_cases here : other = id
  · subst here
    exact own waits ticket found
  · obtain ⟨waited, tickets⟩ := others other waits here
    exact receptive.startsOver other waited ticket (tickets ▸ found)

/-- Blocks are as large as they were if the replicas are the same. -/
theorem divided_of_replicas (receptive : c.Receptive capacity)
    (replicas : d.replicas = c.replicas) : ∀ cache ∈ d.caches, 0 < cache.pool.blockSize := by
  rw [Cluster.caches, replicas]
  exact receptive.divided

/-- Something else than the scheduler has changed. -/
theorem of_scheduler (receptive : c.Receptive capacity) (inOrder : d.InOrder)
    (scheduler : d.scheduler = c.scheduler)
    (divided : ∀ cache ∈ d.caches, 0 < cache.pool.blockSize) : d.Receptive capacity := by
  refine ⟨inOrder, ?_, ?_, ?_, divided⟩
  · rw [scheduler]
    exact receptive.retentive
  · rw [scheduler]
    exact receptive.capacity
  · rw [scheduler]
    exact receptive.startsOver

/-- Nothing but the trace and what was delivered has changed. -/
theorem congr (receptive : c.Receptive capacity) (scheduler : d.scheduler = c.scheduler)
    (replicas : d.replicas = c.replicas) : d.Receptive capacity := by
  obtain ⟨_, owned⟩ := receptive.inOrder
  exact receptive.of_scheduler ⟨_, owned.congr replicas scheduler⟩ scheduler
    (receptive.divided_of_replicas replicas)

/-- A ticket is replaced; if its request waits, it still starts over. -/
theorem put {new : Ticket} (receptive : c.Receptive capacity) (evolves : c.Evolves d)
    (replicas : d.replicas = c.replicas) (waiting : d.scheduler.waiting = c.scheduler.waiting)
    (tickets : d.scheduler.tickets = c.scheduler.tickets.insert id new)
    (own : id ∈ c.scheduler.waiting → new.StartsOver) : d.Receptive capacity := by
  refine receptive.change id evolves (receptive.divided_of_replicas replicas)
    (fun other waits differ => ⟨waiting ▸ waits, ?_⟩) fun waits held there => ?_
  · rw [tickets, Registry.get?_insert, if_neg differ]
  · rw [tickets, Registry.get?_insert, if_pos rfl] at there
    cases there
    exact own (waiting ▸ waits)

/-- The ticket of a running request is replaced. -/
theorem put_running {new : Ticket} (receptive : c.Receptive capacity)
    (runs : id ∈ c.scheduler.running) (evolves : c.Evolves d) (replicas : d.replicas = c.replicas)
    (waiting : d.scheduler.waiting = c.scheduler.waiting)
    (tickets : d.scheduler.tickets = c.scheduler.tickets.insert id new) : d.Receptive capacity := by
  obtain ⟨_, owned⟩ := receptive.inOrder
  exact receptive.put evolves replicas waiting tickets fun waits =>
    absurd waits (owned.consistent.not_waiting_of_running runs)

/-- A ticket is replaced by one with the same request and the same primary lane. -/
theorem put_same (new : Ticket) (receptive : c.Receptive capacity)
    (found : c.scheduler.tickets.get? id = some ticket) (evolves : c.Evolves d)
    (request : new.request = ticket.request) (primary : new.primary = ticket.primary)
    (replicas : d.replicas = c.replicas) (waiting : d.scheduler.waiting = c.scheduler.waiting)
    (tickets : d.scheduler.tickets = c.scheduler.tickets.insert id new) : d.Receptive capacity :=
  receptive.put evolves replicas waiting tickets fun waits =>
    (receptive.startsOver id waits ticket found).congr request primary

/-- The request at the front starts. -/
theorem started {sequence : SequenceId} {ids : SequenceIds} {rest : List RequestId}
    (receptive : c.Receptive capacity) (owned : c.Owned caches)
    (front : c.scheduler.waiting = id :: rest)
    (found : c.scheduler.tickets.get? id = some ticket)
    (same : ids.capacity = c.scheduler.ids.capacity)
    (kept : (c.started caches id ticket sequence ids).Owned
      (caches.map fun cache => cache.registered sequence)) :
    (c.started caches id ticket sequence ids).Receptive capacity := by
  have nodup := receptive.nodup_waiting
  rw [front, List.nodup_cons] at nodup
  refine receptive.change id (.step owned (.started front found same) kept) (fun cache member => ?_)
    (fun other waits differ => ⟨?_, ?_⟩) fun waits => ?_
  · rw [kept.caches_eq] at member
    obtain ⟨before, was, rfl⟩ := List.mem_map.mp member
    exact receptive.divided before (owned.caches_eq ▸ was)
  · exact List.mem_of_mem_tail waits
  · show (c.scheduler.tickets.insert id _).get? other = _
    rw [Registry.get?_insert, if_neg differ]
  · rw [waiting_started front] at waits
    exact absurd waits nodup.1

/-- The sequence of a running request is removed from every cache. -/
theorem divided_of_without {sequence : SequenceId} (receptive : c.Receptive capacity)
    (owned : c.Owned caches) (kept : d.Owned (caches.map fun cache => cache.without sequence)) :
    ∀ cache ∈ d.caches, 0 < cache.pool.blockSize := by
  intro cache member
  rw [kept.caches_eq] at member
  obtain ⟨before, was, rfl⟩ := List.mem_map.mp member
  rw [PagedCache.blockSize_without]
  exact receptive.divided before (owned.caches_eq ▸ was)

end Receptive

/-! ### Actions -/

namespace KeepsReceptive

/-- One action after another. -/
theorem bind {action : Action Cluster β} {next : β → Action Cluster α}
    (first : KeepsReceptive capacity action c)
    (later : ∀ value d, d.Receptive capacity → KeepsReceptive capacity (next value) d) :
    KeepsReceptive capacity (action >>= next) c := by
  rw [KeepsReceptive, meets_bind]
  exact Meets.mono first later fun _ _ stopped => stopped

/-- A checked value before an action. -/
theorem liftM_bind {x : Checked β} {next : β → Action Cluster α}
    (receptive : c.Receptive capacity)
    (later : ∀ value, KeepsReceptive capacity (next value) c) :
    KeepsReceptive capacity (liftM x >>= next) c := by
  rw [KeepsReceptive, meets_bind, meets_liftM]
  exact (Yields.anyhow x).mono (fun value _ => later value) fun _ _ _ _ => receptive

/-- A look-up before an action. -/
theorem find_bind {next : Ticket → Action Cluster α} (receptive : c.Receptive capacity)
    (later : ∀ ticket, c.scheduler.tickets.get? id = some ticket →
      KeepsReceptive capacity (next ticket) c) :
    KeepsReceptive capacity (find id >>= next) c := by
  rw [KeepsReceptive, meets_bind, meets_find]
  cases found : c.scheduler.tickets.get? id with
  | none =>
      rw [Scheduler.ticketOf_of_absent found]
      exact fun _ _ => receptive
  | some ticket =>
      rw [Scheduler.ticketOf_of_found found]
      exact later ticket found

theorem forM {action : β → Action Cluster PUnit} (receptive : c.Receptive capacity)
    (step : ∀ b d, d.Receptive capacity → KeepsReceptive capacity (action b) d) (list : List β) :
    KeepsReceptive capacity (list.forM action) c := by
  unfold KeepsReceptive
  exact Meets.forM (fun _ d => d.Receptive capacity) (fun b _ d => step b d) list c receptive

end KeepsReceptive

theorem add_receptive (receptive : c.Receptive capacity) (request : Request) :
    KeepsReceptive capacity (onScheduler (Scheduler.add request)) c := by
  obtain ⟨_, owned⟩ := receptive.inOrder
  have keeps := add_keeps owned request
  rw [KeepsReceptive]
  rw [meets_onScheduler] at keeps ⊢
  refine (keeps.and (Scheduler.add_meets request c.scheduler)).mono ?_ ?_
  · rintro _ _ ⟨evolves, _, _, rfl⟩
    refine receptive.change request.id evolves (receptive.divided_of_replicas rfl)
      (fun other waits differ => ⟨?_, ?_⟩) fun _ held there => ?_
    · refine (List.mem_append.mp waits).resolve_right fun new => differ ?_
      exact List.mem_singleton.mp new
    · show (c.scheduler.tickets.insert request.id _).get? other = _
      rw [Registry.get?_insert, if_neg differ]
    · replace there : (c.scheduler.tickets.insert request.id _).get? request.id = some held := there
      rw [Registry.get?_insert, if_pos rfl] at there
      cases there
      exact Ticket.startsOver_ofRequest request c.scheduler.laneCount
  · rintro _ _ ⟨_, rfl, _⟩ _ _
    exact receptive

theorem abort_receptive (receptive : c.Receptive capacity) (id : RequestId) :
    KeepsReceptive capacity (onScheduler (Scheduler.abort id)) c := by
  obtain ⟨_, owned⟩ := receptive.inOrder
  have keeps : Meets (onScheduler (Scheduler.abort id)) c _ _ := abort_keeps owned
  rw [KeepsReceptive]
  rw [meets_onScheduler] at keeps ⊢
  refine (keeps.and (Scheduler.abort_meets owned.consistent id)).mono ?_ ?_
  · rintro _ _ ⟨evolves, ⟨runs, ticket, _, rfl⟩ | ⟨_, ids, _, rfl⟩⟩
    · exact receptive.put_running runs evolves rfl rfl rfl
    · refine receptive.change id evolves (receptive.divided_of_replicas rfl)
        (fun other waits differ => ⟨List.mem_of_mem_erase waits, ?_⟩) fun waits => ?_
      · show (c.scheduler.tickets.erase id).get? other = _
        rw [Registry.get?_erase, if_neg differ]
      · exact absurd waits receptive.nodup_waiting.not_mem_erase
  · rintro _ _ ⟨_, rfl, _⟩ _ _
    exact receptive

theorem record_receptive (receptive : c.Receptive capacity) (id : RequestId) (event : Event) :
    KeepsReceptive capacity (record id event) c :=
  receptive.congr rfl rfl

/-! ### Admission -/

/-- **Admission** by any test, which may stop it. -/
theorem startWhile_receptive {π : Type} {slots : Nat} {test : AdmissionTest π} :
    ∀ (list : List RequestId) (notes : π) (c : Cluster), c.Receptive capacity →
      c.scheduler.waiting = list → KeepsReceptive capacity (startWhile slots test notes list) c
  | [], _, _, receptive, _ => receptive
  | id :: rest, notes, c, receptive, front => by
      obtain ⟨caches, owned⟩ := receptive.inOrder
      refine owned.startWhile_rule front (fun _ => receptive) (fun _ _ _ _ _ _ => receptive)
        (fun _ _ _ _ _ => receptive) (fun _ _ refused => by cases refused) ?_
      intro ticket later sequence ids found _ _ same _ kept
      exact startWhile_receptive rest later _ (receptive.started owned front found same kept)
        (waiting_started front)

theorem admitFitting_receptive (receptive : c.Receptive capacity) (slots : Nat) :
    KeepsReceptive capacity (admitFitting slots) c :=
  KeepsReceptive.bind (startWhile_receptive c.scheduler.waiting [] c receptive rfl)
    fun admitted _ receptive => .bind
      (.forM receptive (fun id _ receptive => record_receptive receptive id .admitted) admitted)
      fun _ _ receptive => receptive

/-- Admission seats those whom it takes. -/
theorem admitFitting_seats (inOrder : c.InOrder) (slots : Nat) :
    Meets (admitFitting slots) c
      (fun front d => c.Seated front { d with trace := c.trace }) (fun _ _ => True) := by
  unfold admitFitting startWaiting
  rw [meets_bind, meets_bind, meets_get]
  refine (startWhile_seats c.scheduler.waiting [] c inOrder rfl).mono ?_ (fun _ _ _ => trivial)
  intro front d seated
  rw [meets_bind]
  refine (recordAll_meets front .admitted d).mono ?_ (fun _ _ _ => trivial)
  rintro _ _ ⟨trace, rfl⟩
  rw [meets_pure, ← seated.trace]
  exact seated

/-! ### Feeding -/

theorem forward_receptive (receptive : c.Receptive capacity) (place : Nat) (sequence : SequenceId)
    (chunks : List Chunk) :
    KeepsReceptive capacity (onReplicas (onReplica place (Replica.forward sequence chunks))) c := by
  obtain ⟨caches, owned⟩ := receptive.inOrder
  have keeps := forward_keeps owned place sequence chunks
  rw [KeepsReceptive]
  rw [meets_onReplicas, owned.replicas] at keeps ⊢
  cases there : caches[place]? with
  | none =>
      unfold Meets
      rw [onReplica_out_of_range there]
      exact fun _ refused => by cases refused
  | some cache =>
      have fed : ∀ next : PagedCache, next.pool.blockSize = cache.pool.blockSize →
          c.Evolves { c with replicas := (caches.set place next).map .paged } →
          Receptive capacity { c with replicas := (caches.set place next).map .paged } := by
        intro next same evolves
        refine receptive.of_scheduler evolves.inOrder rfl fun after member => ?_
        have listed : Cluster.caches { c with replicas := (caches.set place next).map .paged } =
            caches.set place next := by
          rw [Cluster.caches, List.filterMap_map]
          exact List.filterMap_some
        rw [listed] at member
        have sized : ∀ before ∈ caches, 0 < before.pool.blockSize := fun before was =>
          receptive.divided before (owned.caches_eq ▸ was)
        rcases List.mem_or_eq_of_mem_set member with was | rfl
        · exact sized after was
        · rw [same]
          exact sized cache (List.mem_of_getElem? there)
      rw [meets_onReplica_forward there] at keeps ⊢
      refine (keeps.and (cache.forward_blockSize sequence chunks)).mono
        (fun _ next both => fed next both.2 both.1) fun stop next both cause refused => ?_
      subst refused
      exact fed next (both.2 cause rfl) both.1

theorem commit_receptive (receptive : c.Receptive capacity) (id : RequestId) (replica : Nat)
    (sample : Sample) :
    KeepsReceptive capacity (onScheduler (Scheduler.commit id replica sample)) c := by
  obtain ⟨_, owned⟩ := receptive.inOrder
  have keeps : Meets (onScheduler (Scheduler.commit id replica sample)) c _ _ :=
    commit_keeps owned replica sample
  rw [KeepsReceptive]
  rw [meets_onScheduler] at keeps ⊢
  refine (keeps.and (Scheduler.commit_meets owned.consistent id replica sample)).mono ?_ ?_
  · rintro _ _ ⟨evolves, ticket, runs, _, _, rfl⟩
    exact receptive.put_running runs evolves rfl rfl rfl
  · rintro _ _ ⟨_, ⟨rfl, _⟩ | ⟨rfl, _⟩⟩ cause refused
    · exact receptive
    · cases refused

theorem markPrefilled_receptive (receptive : c.Receptive capacity) (id : RequestId) :
    KeepsReceptive capacity (onScheduler (Scheduler.markPrefilled id)) c := by
  obtain ⟨_, owned⟩ := receptive.inOrder
  unfold KeepsReceptive Scheduler.markPrefilled
  rw [meets_onScheduler, meets_bind, Scheduler.meets_find]
  cases found : c.scheduler.tickets.get? id with
  | none =>
      rw [Scheduler.ticketOf_of_absent found]
      exact fun _ _ => receptive
  | some ticket =>
      rw [Scheduler.ticketOf_of_found found, yields_ok, Scheduler.meets_put]
      have alike : ticket.markPrefilled.Alike := owned.consistent.alike id ticket found
      have evolves := put_keeps owned found alike rfl rfl
      exact receptive.put_same ticket.markPrefilled found evolves rfl rfl rfl rfl rfl

theorem feed_receptive (receptive : c.Receptive capacity) (id : RequestId) (replica : Nat)
    (sequence : SequenceId) (chunks : List Chunk) :
    KeepsReceptive capacity (feed id replica sequence chunks) c :=
  (forward_receptive receptive replica sequence chunks).bind fun sample _ receptive =>
    (commit_receptive receptive id replica sample).bind fun _ _ receptive => receptive

/-- Only what is pending of a running request may be taken away. -/
theorem feedPending_receptive (receptive : c.Receptive capacity) (runs : id ∈ c.scheduler.running)
    (replica : Nat) : KeepsReceptive capacity (feedPending id replica) c := by
  obtain ⟨_, owned⟩ := receptive.inOrder
  refine .find_bind receptive fun ticket found => .liftM_bind receptive fun lane => ?_
  cases lane.sequence with
  | none => exact fun _ _ => receptive
  | some sequence =>
      have kept : ∀ lane : Lane, lane.fed.sequence = lane.sequence := fun _ => rfl
      have alike : (ticket.modifyLane replica Lane.fed).Alike :=
        (owned.consistent.alike id ticket found).modifyLane kept
      have evolves := put_keeps owned found alike (Ticket.primary_modifyLane_sequence kept)
        (Ticket.occupied_modifyLane fun _ => rfl)
      have taken : KeepsReceptive capacity (put id (ticket.modifyLane replica Lane.fed)) c :=
        receptive.put_running runs evolves rfl rfl rfl
      exact taken.bind fun _ _ receptive =>
        feed_receptive receptive id replica sequence lane.pending

theorem feedLast_receptive (receptive : c.Receptive capacity) (id : RequestId) (replica : Nat) :
    KeepsReceptive capacity (feedLast id replica) c := by
  refine .find_bind receptive fun ticket _ => .liftM_bind receptive fun lane => ?_
  split
  · exact fun _ _ => receptive
  · exact fun _ _ => receptive
  · exact feed_receptive receptive ..

/-- A request is fed its input on every replica. -/
theorem prefillOne_receptive (receptive : c.Receptive capacity)
    (runs : id ∈ c.scheduler.running) : KeepsReceptive capacity (prefillOne id) c := by
  refine KeepsReceptive.bind ?_ fun _ d receptive => ?_
  · unfold onEachPlace KeepsReceptive
    rw [meets_bind, meets_get]
    refine (Meets.forM (fun _ d => d.Receptive capacity ∧ id ∈ d.scheduler.running)
      (fun place _ d kept => ?_) _ c ⟨receptive, runs⟩).mono (fun _ _ kept => kept.1)
      fun _ _ stopped => stopped
    rw [meets_discard]
    exact Meets.mono ((feedPending_receptive kept.1 kept.2 place).and
      (feedPending_steady id place d))
      (fun _ e both => ⟨both.1, both.2.scheduler.running ▸ kept.2⟩) fun _ _ stopped => stopped.1
  · refine KeepsReceptive.bind (markPrefilled_receptive receptive id) fun _ _ receptive => ?_
    exact record_receptive receptive id .prefilled

theorem prefillAll_receptive (receptive : c.Receptive capacity) {ids : List RequestId}
    (run : ∀ id ∈ ids, id ∈ c.scheduler.running) :
    KeepsReceptive capacity (ids.forM prefillOne) c := by
  unfold KeepsReceptive
  refine (Meets.forM
    (fun rest d => d.Receptive capacity ∧ ∀ id ∈ rest, id ∈ d.scheduler.running)
    (fun id rest d kept => ?_) ids c ⟨receptive, run⟩).mono (fun _ _ kept => kept.1)
    fun _ _ stopped => stopped
  obtain ⟨receptive, run⟩ := kept
  refine Meets.mono ((prefillOne_receptive receptive (run id List.mem_cons_self)).and
    (prefillOne_steady id d)) (fun _ e both => ⟨both.1, fun other later => ?_⟩)
    fun _ _ stopped => stopped.1
  rw [both.2.scheduler.running]
  exact run other (List.mem_cons_of_mem id later)

theorem decodeAll_receptive (receptive : c.Receptive capacity) (ids : List RequestId) :
    KeepsReceptive capacity (ids.forM decodeOne) c := by
  refine .forM receptive (fun id d receptive => ?_) ids
  unfold decodeOne onEachPlace KeepsReceptive
  rw [meets_bind, meets_get]
  refine KeepsReceptive.forM receptive (fun place e receptive => ?_) _
  unfold KeepsReceptive
  rw [meets_discard]
  exact feedLast_receptive receptive id place

/-! ### Making room -/

theorem preemptLast_receptive (receptive : c.Receptive capacity) :
    KeepsReceptive capacity preemptLast c := by
  obtain ⟨caches, owned⟩ := receptive.inOrder
  refine preemptLast_rule (fun _ _ _ => receptive) fun id victim => ?_
  have runs := Scheduler.victim?_mem_running victim
  obtain ⟨ticket, found⟩ := owned.consistent.found_of_running runs
  refine (preempt_meets owned runs found).mono ?_ ?_
  · rintro _ _ ⟨sequence, _, rfl, kept⟩
    refine receptive.change id (.step owned (.preempted runs found) kept)
      (receptive.divided_of_without owned kept) (fun other waits differ => ⟨?_, ?_⟩)
      fun _ held there => ?_
    · exact (List.mem_cons.mp waits).resolve_left differ
    · show (c.scheduler.tickets.insert id _).get? other = _
      rw [Registry.get?_insert, if_neg differ]
    · replace there : (c.scheduler.tickets.insert id _).get? id = some held := there
      rw [Registry.get?_insert, if_pos rfl] at there
      cases there
      exact ticket.startsOver_rewound
  · rintro _ _ ⟨rfl, _⟩ _ _
    exact receptive

theorem makeRoom_receptive (victims : Nat) (c : Cluster) (receptive : c.Receptive capacity) :
    KeepsReceptive capacity (makeRoom victims) c := by
  have stays : ∀ stop : Stop, ∀ cause, stop = .refused cause → c.Receptive capacity :=
    fun _ _ _ => receptive
  refine makeRoom_turn (fun stop _ => stays stop) (fun _ stop _ _ => stays stop)
    (fun _ _ _ _ => stays _) (fun _ _ _ => receptive) fun batch more fewer _ _ _ => ?_
  exact Meets.mono (preemptLast_receptive receptive)
    (fun _ d receptive => makeRoom_receptive more d receptive) fun _ _ stopped => stopped
termination_by victims
decreasing_by omega

/-! ### Reporting -/

theorem report_receptive {tokenizer : Tokenizer} {maxLength : Nat} :
    ∀ (ids : List RequestId) (c : Cluster), c.Receptive capacity →
      KeepsReceptive capacity (report tokenizer maxLength ids) c
  | [], _, receptive => receptive
  | id :: rest, c, receptive => by
      obtain ⟨_, owned⟩ := receptive.inOrder
      refine report_rule (fun _ _ _ => receptive) (fun _ _ _ _ _ _ => receptive)
        fun ticket delta next found reported => ?_
      have same := (Ticket.report_yields ticket tokenizer maxLength).of_ok reported
      exact report_receptive rest _ (receptive.put_same next found
        (reported_keeps owned found same) same.request same.primary rfl rfl rfl)

theorem reclaimOne_receptive (receptive : c.Receptive capacity) (id : RequestId) :
    KeepsReceptive capacity (reclaimOne id) c := by
  obtain ⟨caches, owned⟩ := receptive.inOrder
  by_cases runs : id ∈ c.scheduler.running
  · obtain ⟨ticket, found⟩ := owned.consistent.found_of_running runs
    refine (reclaimOne_meets owned runs found).mono ?_ ?_
    · rintro _ _ ⟨sequence, ids, _, frees, rfl, kept, _⟩
      refine receptive.change id (.step owned (.ended runs found frees) kept)
        (receptive.divided_of_without owned kept) (fun other waits differ => ⟨waits, ?_⟩)
        fun waits => absurd waits (owned.consistent.not_waiting_of_running runs)
      show (c.scheduler.tickets.erase id).get? other = _
      rw [Registry.get?_erase, if_neg differ]
    · rintro _ _ ⟨rfl, _⟩ cause refused
      cases refused
  · unfold reclaimOne KeepsReceptive
    rw [meets_bind, meets_get, if_neg runs]
    exact fun _ _ => receptive

theorem process_receptive (receptive : c.Receptive capacity) (ids : List RequestId)
    (tokenizer : Tokenizer) (maxLength : Nat) :
    KeepsReceptive capacity (process ids tokenizer maxLength) c := by
  rw [KeepsReceptive, meets_process]
  refine Meets.mono (report_receptive ids c receptive) (fun batch d receptive => ?_)
    fun _ _ receptive => receptive
  have delivered : Receptive capacity { d with delivered := d.delivered ++ [batch] } :=
    receptive.congr rfl rfl
  exact KeepsReceptive.forM delivered (fun id _ receptive => reclaimOne_receptive receptive id) _

/-! ### Steps -/

theorem feedBatch_receptive (receptive : c.Receptive capacity) {admitted : List RequestId}
    (run : ∀ id ∈ admitted, id ∈ c.scheduler.running) :
    KeepsReceptive capacity (feedBatch admitted) c := by
  refine feedBatch_rule (fun _ => prefillAll_receptive receptive run) (fun _ _ _ _ => receptive)
    fun _ _ => ?_
  refine Meets.mono (makeRoom_receptive _ c receptive) (fun preempted d receptive => ?_)
    fun _ _ stopped => stopped
  exact (Yields.anyhow _).mono (fun scheduled _ => decodeAll_receptive receptive scheduled)
    fun _ _ _ _ => receptive

/-- **A step** leaves the cluster receptive, also if it is interrupted. -/
theorem step_receptive (receptive : c.Receptive capacity) (tokenizer : Tokenizer)
    (settings : EngineSettings) : KeepsReceptive capacity (step tokenizer settings) c := by
  refine step_rule (fun _ => receptive) fun _ => ?_
  have fed : KeepsReceptive capacity (turn settings.maxRunning) c := by
    unfold KeepsReceptive turn
    rw [meets_bind]
    refine Meets.mono ((admitFitting_receptive receptive settings.maxRunning).and
      (admitFitting_seats receptive.inOrder settings.maxRunning)) ?_ fun _ _ stopped => stopped.1
    rintro front d ⟨receptive, seated⟩
    refine feedBatch_receptive receptive fun id member => ?_
    rw [show d.scheduler.running = _ from seated.running]
    exact List.mem_append_right _ member
  refine Meets.mono fed (fun first d receptive => ?_) fun _ _ stopped => stopped
  refine (Yields.anyhow _).mono (fun ids _ => ?_) fun _ _ _ _ => receptive
  refine Meets.mono (process_receptive receptive ids tokenizer settings.maxLength)
    (fun finished e receptive => ?_) fun _ _ stopped => stopped
  exact KeepsReceptive.forM receptive
    (fun id _ receptive => record_receptive receptive id .finished) finished

end Cluster

/-! ### Calls -/

namespace Engine

variable {capacity : Nat} {engine after : Engine}

/-- **A call** leaves the cluster receptive, also if it is refused. -/
theorem call_receptive (receptive : engine.cluster.Receptive capacity) (call : Call) :
    Meets call.run engine (fun _ after => after.cluster.Receptive capacity)
      (fun stop after => ∀ cause, stop = .refused cause → after.cluster.Receptive capacity) := by
  cases call with
  | submit submission =>
      unfold Call.run
      rw [meets_map]
      refine submit_rule (fun _ _ same _ _ _ => same.cluster ▸ receptive) fun id named same => ?_
      rw [← same.cluster] at receptive
      exact Meets.mono (Cluster.add_receptive receptive _)
        (fun _ _ receptive => receptive.congr rfl rfl) fun _ _ stopped => stopped
  | abort id =>
      unfold Call.run abort
      rw [meets_map, meets_onCluster, meets_bind]
      exact Meets.mono (Cluster.abort_receptive receptive id)
        (fun _ _ receptive => Cluster.record_receptive receptive id .aborted)
        fun _ _ stopped => stopped
  | step =>
      unfold Call.run step
      rw [meets_map, meets_bind, meets_get, meets_onCluster]
      exact Cluster.step_receptive receptive engine.tokenizer engine.settings

/-- **Any calls** leave the cluster receptive, whatever is refused among them. -/
theorem receptive_served (receptive : engine.cluster.Receptive capacity) {calls : List Call}
    {answers : List Answer} (served : engine.serve calls = some (answers, after)) :
    after.cluster.Receptive capacity := by
  induction calls generalizing engine answers with
  | nil =>
      cases served
      exact receptive
  | cons call rest ih =>
      obtain ⟨first, middle, later, answered, onwards, rfl⟩ := serve_cons.mp served
      exact ih (of_answered (call_receptive receptive call) answered) onwards

end Engine

end ContinuousBatching
