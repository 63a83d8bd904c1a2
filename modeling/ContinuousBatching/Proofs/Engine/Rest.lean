/-
**Between two steps.**

Between two calls every request is settled (`Cluster.AtRest`): its lanes have as many tokens as were
reported, none of which finishes it; one that runs was fed, and one that was given up runs. Until a
step reports, only lanes, queues and sequences change, and what was reported stays as it is
(`Cluster.Silent`).

* `Cluster.demand`, `Cluster.sum_lt_demand`: a bound of every length and every sum of lengths that
  is counted in a step; it stays the same while nothing is reported. `Cluster.load` is a coarser
  one, with one position more for every request (`Cluster.demand_le_load`);
* `Cluster.want`: the blocks that a running request lacks in a cache for what it is fed next, and
  `Live.want_of_primed`, `Live.want_of_drained` what they amount to.
-/

import ContinuousBatching.Proofs.Cache.Capacity
import ContinuousBatching.Proofs.Engine.Live
import ContinuousBatching.Proofs.Request.Report

namespace ContinuousBatching

/-- The tokens that the first model generates for a request alone. -/
def Premises.stream (p : Premises) (request : Request) (n : Nat) : List TokenId :=
  (solo (p.models.head p.replicated).nextToken (tokenIds request.inputs) n).map Sample.token

/-- Whether that many tokens of its own end a request, and why. -/
def Premises.judgement (p : Premises) (request : Request) (n : Nat) :
    Checked (Option FinishReason) :=
  request.judge p.tokenizer p.settings.maxLength (p.stream request n)

/-- A request is settled between two steps. -/
structure Ticket.Settled (p : Premises) (ticket : Ticket) (runs : Prop) : Prop where
  level : ∀ lane ∈ ticket.lanes, lane.committed.length = ticket.reported
  unfinished : ticket.finish = none
  wanted : ¬ runs → ticket.abortRequested = false
  drained : runs → ∀ lane ∈ ticket.lanes, lane.Drained
  judged : ∀ n, n ≤ ticket.reported → p.judgement ticket.request n = .ok none

/-- The number of blocks that the lane at a place lacks in a cache for what it is fed next. -/
def Ticket.lacksIn (ticket : Ticket) (place : Nat) (cache : PagedCache) : Nat :=
  match ticket.lane? place, ticket.primary.sequence with
  | some lane, some sequence =>
    ((cache.sequences.get? sequence).map fun written => written.lacks lane.next).getD 0
  | _, _ => 0

theorem Ticket.lacksIn_congr {ticket other : Ticket} {place : Nat} {cache cache' : PagedCache}
    (lane : other.lane? place = ticket.lane? place)
    (sequence : other.primary.sequence = ticket.primary.sequence)
    (same : ∀ sequence, ticket.primary.sequence = some sequence →
      cache'.sequences.get? sequence = cache.sequences.get? sequence) :
    other.lacksIn place cache' = ticket.lacksIn place cache := by
  unfold lacksIn
  rw [lane, sequence]
  split
  · rename_i attached
    rw [same _ attached]
  · rfl

/-- The positions of everything that a settled request is fed when it is fed from the start. -/
def Terms.extent (terms : Terms) : Nat := terms.request.inputLength + terms.reported

namespace Cluster

/-- Every request stands where its lanes say and is settled. -/
structure AtRest (p : Premises) (c : Cluster) (caches : List PagedCache) : Prop where
  live : c.Live p caches
  settled : ∀ id ticket, c.scheduler.tickets.get? id = some ticket →
    ticket.Settled p (id ∈ c.scheduler.running)

/-- Nothing but the trace and what was delivered has changed. -/
theorem AtRest.congr {p : Premises} {c d : Cluster} {caches : List PagedCache}
    (rest : c.AtRest p caches) (replicas : d.replicas = c.replicas)
    (scheduler : d.scheduler = c.scheduler) : d.AtRest p caches := by
  refine ⟨rest.live.congr replicas scheduler, ?_⟩
  rw [scheduler]
  exact rest.settled

/-- Nothing was reported in between. -/
structure Silent (c d : Cluster) : Prop where
  terms : ∀ id, d.terms? id = c.terms? id
  keys : d.scheduler.tickets.keys = c.scheduler.tickets.keys
  prefillLength : d.scheduler.totals.prefillLength = c.scheduler.totals.prefillLength
  decodeLength : d.scheduler.totals.decodeLength = c.scheduler.totals.decodeLength
  delivered : d.delivered = c.delivered

/-- The positions of everything that a settled request is fed when it is fed from the start. -/
def extent (c : Cluster) (id : RequestId) : Nat := ((c.terms? id).map Terms.extent).getD 0

/-- A bound of the positions that a request may take until its next report. -/
def weight (c : Cluster) (id : RequestId) : Nat :=
  ((c.terms? id).map fun terms => terms.extent + 1).getD 0

/-- A coarser bound of all lengths that are counted until the next report than `demand`, made of the
positions that each request may take. -/
def load (c : Cluster) : Nat :=
  (c.scheduler.tickets.keys.map c.weight).sum + c.scheduler.totals.prefillLength +
    c.scheduler.totals.decodeLength

/-- A bound of all lengths that are counted until the next report: what every request is fed when it
is fed from the start, what was counted of those that ended, and one token more. -/
def demand (c : Cluster) : Nat :=
  (c.scheduler.tickets.keys.map c.extent).sum + c.scheduler.totals.prefillLength +
    c.scheduler.totals.decodeLength + 1

/-- The number of blocks that a running request lacks in a cache for what it is fed next. -/
def want (c : Cluster) (place : Nat) (cache : PagedCache) (id : RequestId) : Nat :=
  ((c.scheduler.tickets.get? id).map fun ticket => ticket.lacksIn place cache).getD 0

variable {p : Premises} {c d e : Cluster} {caches : List PagedCache} {id : RequestId}
  {ticket : Ticket}

/-! ### While nothing is reported -/

theorem terms?_of_found (found : c.scheduler.tickets.get? id = some ticket) :
    c.terms? id = some ticket.terms := by
  rw [terms?, found]
  rfl

namespace Silent

theorem refl (c : Cluster) : c.Silent c := ⟨fun _ => rfl, rfl, rfl, rfl, rfl⟩

theorem trans (first : c.Silent d) (second : d.Silent e) : c.Silent e :=
  ⟨fun id => (second.terms id).trans (first.terms id), second.keys.trans first.keys,
    second.prefillLength.trans first.prefillLength, second.decodeLength.trans first.decodeLength,
    second.delivered.trans first.delivered⟩

theorem extent (silent : c.Silent d) : d.extent = c.extent := by
  funext id
  rw [Cluster.extent, Cluster.extent, silent.terms]

theorem demand (silent : c.Silent d) : d.demand = c.demand := by
  rw [Cluster.demand, Cluster.demand, silent.keys, silent.extent, silent.prefillLength,
    silent.decodeLength]

/-- A ticket is replaced by one with the same terms. -/
theorem put {new : Ticket} (found : c.scheduler.tickets.get? id = some ticket)
    (same : new.terms = ticket.terms)
    (tickets : d.scheduler.tickets = c.scheduler.tickets.insert id new)
    (prefillLength : d.scheduler.totals.prefillLength = c.scheduler.totals.prefillLength)
    (decodeLength : d.scheduler.totals.decodeLength = c.scheduler.totals.decodeLength)
    (delivered : d.delivered = c.delivered) : c.Silent d := by
  refine ⟨fun other => ?_, ?_, prefillLength, decodeLength, delivered⟩
  · rw [terms?, tickets, Registry.get?_insert]
    split
    · rename_i here
      rw [here, terms?_of_found found, ← same]
      rfl
    · rfl
  · rw [tickets, Registry.keys_insert_of_mem (Registry.mem_keys_iff.mpr ⟨ticket, found⟩)]

/-- A ticket before is a ticket with the same terms now. -/
theorem found (silent : c.Silent d) (found : d.scheduler.tickets.get? id = some ticket) :
    ∃ before, c.scheduler.tickets.get? id = some before ∧ before.terms = ticket.terms := by
  have terms := silent.terms id
  rw [terms?_of_found found, terms?] at terms
  obtain ⟨before, there, same⟩ := Option.map_eq_some_iff.mp terms.symm
  exact ⟨before, there, same⟩

end Silent

/-! ### Bounds -/

theorem extent_of_found (found : c.scheduler.tickets.get? id = some ticket) :
    c.extent id = ticket.request.inputLength + ticket.reported := by
  rw [extent, terms?_of_found found]
  rfl

theorem weight_of_found (found : c.scheduler.tickets.get? id = some ticket) :
    c.weight id = ticket.request.inputLength + ticket.reported + 1 := by
  rw [weight, terms?_of_found found]
  rfl

/-- Lengths of different requests, each within what it is fed from the start, are together less than
the demand. -/
theorem sum_lt_demand {list : List RequestId} {f : RequestId → Nat} (nodup : list.Nodup)
    (known : ∀ id ∈ list, id ∈ c.scheduler.tickets.keys) (below : ∀ id ∈ list, f id ≤ c.extent id) :
    (list.map f).sum < c.demand := by
  have first := List.sum_le_sum below
  have second := sum_map_le_of_subset c.extent nodup known
  unfold demand
  omega

theorem extent_lt_demand (found : c.scheduler.tickets.get? id = some ticket) :
    c.extent id < c.demand := by
  have member : id ∈ c.scheduler.tickets.keys := Registry.mem_keys_iff.mpr ⟨ticket, found⟩
  have single := le_sum_map c.extent member
  unfold demand
  omega

/-- The load has a position more for every request, and so for one at least if there is one. -/
theorem demand_le_load (somebody : c.scheduler.tickets.keys ≠ []) : c.demand ≤ c.load := by
  have heavier : ∀ id ∈ c.scheduler.tickets.keys, c.extent id < c.weight id := fun id known => by
    obtain ⟨ticket, found⟩ := Registry.mem_keys_iff.mp known
    rw [extent_of_found found, weight_of_found found]
    exact Nat.lt_succ_self _
  obtain ⟨id, known⟩ := List.exists_mem_of_ne_nil _ somebody
  have less := List.sum_lt_sum _ _ (fun other member => Nat.le_of_lt (heavier other member))
    ⟨id, known, heavier id known⟩
  unfold demand load
  omega

/-! ### What is lacking -/

theorem want_eq_lacksIn (found : c.scheduler.tickets.get? id = some ticket) (place : Nat)
    (cache : PagedCache) : c.want place cache id = ticket.lacksIn place cache := by
  rw [want, found]
  rfl

theorem want_of_found {place : Nat} {cache : PagedCache} {lane : Lane} {sequence : SequenceId}
    {written : PagedSequence} (found : c.scheduler.tickets.get? id = some ticket)
    (lane_at : ticket.lane? place = some lane) (attached : ticket.primary.sequence = some sequence)
    (there : cache.sequences.get? sequence = some written) :
    c.want place cache id = written.lacks lane.next := by
  rw [want_eq_lacksIn found, Ticket.lacksIn, lane_at, attached]
  dsimp only
  rw [there]
  rfl

/-- What a request lacks depends on its lane at that place and on its sequence there. -/
theorem want_congr {place : Nat} {cache cache' : PagedCache}
    (tickets : d.scheduler.tickets.get? id = c.scheduler.tickets.get? id)
    (same : ∀ sequence, c.scheduler.sequenceOf? id = some sequence →
      cache'.sequences.get? sequence = cache.sequences.get? sequence) :
    d.want place cache' id = c.want place cache id := by
  unfold want
  rw [tickets]
  cases found : c.scheduler.tickets.get? id with
  | none => rfl
  | some ticket =>
      rw [Scheduler.sequenceOf?_of_found found] at same
      exact Ticket.lacksIn_congr rfl rfl same

namespace Live

/-- A running request lacks the blocks that its positions take, less those that it has. -/
theorem want_eq (live : c.Live p caches) (runs : id ∈ c.scheduler.running)
    (found : c.scheduler.tickets.get? id = some ticket) {place : Nat} {lane : Lane}
    {cache : PagedCache} (lane_at : ticket.lane? place = some lane)
    (cache_at : caches[place]? = some cache) :
    ∃ sequence written, ticket.primary.sequence = some sequence ∧
      cache.sequences.get? sequence = some written ∧
      written.table.length + positions lane.next =
        ticket.request.inputLength + lane.committed.length ∧
      c.want place cache id =
        (ticket.request.inputLength + lane.committed.length) ⌈/⌉ cache.pool.blockSize -
          written.table.length ⌈/⌉ cache.pool.blockSize := by
  obtain ⟨sequence, written, attached, _, there, follows⟩ :=
    live.follows_at runs found lane_at cache_at
  obtain ⟨size, length⟩ := (live.owned.sound cache (List.mem_of_getElem? cache_at)).sized
    sequence written there
  refine ⟨sequence, written, attached, there, follows.length, ?_⟩
  rw [want_of_found found lane_at attached there, PagedSequence.lacks, BlockTable.shortfall,
    follows.length, size, length]

/-- A request that is fed everything lacks all the blocks that it takes. -/
theorem want_of_primed (live : c.Live p caches) (runs : id ∈ c.scheduler.running)
    (found : c.scheduler.tickets.get? id = some ticket) {place : Nat} {lane : Lane}
    {cache : PagedCache} (lane_at : ticket.lane? place = some lane)
    (cache_at : caches[place]? = some cache) (primed : lane.Primed ticket.request) :
    c.want place cache id =
      (ticket.request.inputLength + lane.committed.length) ⌈/⌉ cache.pool.blockSize := by
  obtain ⟨sequence, written, _, _, length, want⟩ := live.want_eq runs found lane_at cache_at
  have pending := primed.pending_ne_nil (live.stands id ticket found).asked
  rw [Lane.next_of_pending pending, primed.positions] at length
  have unwritten : written.table.length = 0 := by omega
  rw [want, unwritten, zero_ceilDiv, Nat.sub_zero]

/-- A request that was fed before lacks a block exactly if the positions written fill its blocks. -/
theorem want_of_drained (live : c.Live p caches) (runs : id ∈ c.scheduler.running)
    (found : c.scheduler.tickets.get? id = some ticket) {place : Nat} {lane : Lane}
    {cache : PagedCache} (lane_at : ticket.lane? place = some lane)
    (cache_at : caches[place]? = some cache) (drained : lane.Drained) :
    c.want place cache id =
      if (ticket.request.inputLength + (lane.committed.length - 1)) % cache.pool.blockSize = 0
      then 1 else 0 := by
  obtain ⟨sequence, written, _, _, length, want⟩ := live.want_eq runs found lane_at cache_at
  have divided := live.divided (List.mem_of_getElem? cache_at)
  have positive := List.length_pos_iff.mpr drained.committed
  rw [drained.positions_next] at length
  have before : ticket.request.inputLength + (lane.committed.length - 1) =
      written.table.length := by
    omega
  rw [want, before, ← length, Count.ceilDiv_succ divided]
  omega

end Live

end Cluster

end ContinuousBatching
