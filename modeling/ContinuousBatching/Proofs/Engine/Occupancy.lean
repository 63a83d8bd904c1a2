/-
**The caches hold the running requests and nothing else.**

Between two calls the totals of the scheduler and the blocks of every cache tell the same story: a
cache has a sequence for each running request, with the input and all tokens but the last one
written, and the blocks for exactly these positions; all other blocks are free
(`PagedCache.Serves`). A request that waits, also one that was preempted, takes no block, and one
that ended or was given up while it waited left none behind.

* `Cluster.AtRest.serves`: so it is at rest, in every cache;
* `Engine.serves_of_reached`: so it is after any calls, refused ones among them.
-/

import ContinuousBatching.Proofs.Engine.Calls
import Mathlib.Data.List.Nodup

namespace ContinuousBatching

/-- The sequence of a running request in the cache at a place: the positions written are those that
the request occupies, and only its last token was not fed. -/
structure PagedCache.Holds (cache : PagedCache) (place : Nat) (ticket : Ticket) (lane : Lane)
    (sequence : SequenceId) (written : PagedSequence) : Prop where
  lane_at : ticket.lane? place = some lane
  attached : lane.sequence = some sequence
  found : cache.sequences.get? sequence = some written
  context : written.context = tokenIds ticket.request.inputs ++ lane.committedTokens.dropLast
  length : written.table.length = ticket.occupied
  blocks : written.table.blocks.length = ticket.occupied ⌈/⌉ cache.pool.blockSize

/-- The cache at a place agrees with the scheduler. -/
structure PagedCache.Serves (cache : PagedCache) (place : Nat) (s : Scheduler) : Prop where
  sequences : (cache.sequences.keys.map some).Perm (s.running.map s.sequenceOf?)
  holds : ∀ id ∈ s.running, ∃ ticket lane sequence written, s.tickets.get? id = some ticket ∧
    cache.Holds place ticket lane sequence written
  used : cache.pool.used.Perm cache.tableBlocks
  free : cache.pool.freeCount + (s.running.map fun id =>
    s.occupiedBy id ⌈/⌉ cache.pool.blockSize).sum = cache.pool.blockCount
  occupied : (cache.sequences.values.map fun written => written.table.length).sum =
    s.totals.occupied
  waiting : ∀ id ∈ s.waiting, ∀ sequence, s.sequenceOf? id = some sequence →
    cache.sequences.get? sequence = none

/-- The last token of a lane that was fed is all that its sequence lacks. -/
theorem Lane.Follows.context_of_drained {lane : Lane} {request : Request} {written : PagedSequence}
    (follows : lane.Follows request written) (drained : lane.Drained) :
    written.context = tokenIds request.inputs ++ lane.committedTokens.dropLast := by
  obtain ⟨last, final, next⟩ := drained.last
  obtain ⟨before, tokens⟩ : ∃ before, lane.committed = before ++ [last] :=
    List.getLast?_eq_some_iff.mp final
  have context := follows.context
  rw [next, committedTokens, tokens, List.map_append, ← List.append_assoc] at context
  rw [committedTokens, tokens, List.map_append, List.map_singleton, List.dropLast_concat]
  exact List.append_cancel_right context

namespace Cluster

variable {p : Premises} {c : Cluster} {caches : List PagedCache} {cache : PagedCache}
  {id : RequestId} {place : Nat}

/-- A cache has as many sequences as requests run, each that of a request. -/
theorem Owned.keys_perm (owned : c.Owned caches) (member : cache ∈ caches) :
    (cache.sequences.keys.map some).Perm (c.scheduler.running.map c.scheduler.sequenceOf?) := by
  have consistent := owned.consistent
  have apart : Function.Injective (some : SequenceId → Option SequenceId) :=
    fun _ _ same => Option.some.inj same
  have nodup : (c.scheduler.running.map c.scheduler.sequenceOf?).Nodup := by
    refine consistent.nodup_running.map_on fun first runs second _ same => ?_
    obtain ⟨sequence, held⟩ := Option.ne_none_iff_exists'.mp (consistent.attached first runs)
    exact consistent.owner first second sequence held (same ▸ held)
  refine (List.perm_ext_iff_of_nodup (cache.sequences.nodup_keys.map apart) nodup).mpr
    fun entry => ?_
  cases entry with
  | none =>
      have attached : none ∉ c.scheduler.running.map c.scheduler.sequenceOf? := by
        intro held
        obtain ⟨id, runs, unattached⟩ := List.mem_map.mp held
        exact consistent.attached id runs unattached
      simp [attached]
  | some sequence =>
      rw [List.mem_map_of_injective apart, owned.registered cache member, List.mem_map]

/-- A sum over the sequences of a cache is one over the running requests. -/
theorem Owned.sum_sequences (owned : c.Owned caches) (member : cache ∈ caches)
    (f : PagedSequence → Nat) :
    (cache.sequences.values.map f).sum =
      (c.scheduler.running.map fun id =>
        (((c.scheduler.sequenceOf? id).bind cache.sequences.get?).map f).getD 0).sum := by
  have perm := (owned.keys_perm member).map fun sequence? =>
    ((sequence?.bind cache.sequences.get?).map f).getD 0
  rw [List.map_map, List.map_map] at perm
  rw [Registry.sum_values]
  exact perm.sum_nat

namespace AtRest

/-- **What a running request holds** in the cache at a place. -/
theorem holds (rest : c.AtRest p caches) (runs : id ∈ c.scheduler.running)
    (there : caches[place]? = some cache) :
    ∃ ticket lane sequence written, c.scheduler.tickets.get? id = some ticket ∧
      cache.Holds place ticket lane sequence written := by
  have live := rest.live
  obtain ⟨ticket, found⟩ := live.consistent.found_of_running runs
  obtain ⟨lane, lane_at⟩ := live.lane_at found there
  obtain ⟨sequence, written, _, attached, known, follows⟩ :=
    live.follows_at runs found lane_at there
  have settled := rest.settled id ticket found
  have member := Ticket.lane_mem lane_at
  have drained := settled.drained runs lane member
  -- all lanes are level, so the primary one stands for the lane at this place
  have level : lane.committed.length = ticket.primary.committed.length :=
    (settled.level lane member).trans (settled.level _ Ticket.primary_mem_lanes).symm
  have length : written.table.length = ticket.occupied := by
    have positive := List.length_pos_iff.mpr drained.committed
    have written := follows.length
    rw [drained.positions_next] at written
    unfold Ticket.occupied
    omega
  have sized := ((live.owned.sound cache (List.mem_of_getElem? there)).sized
    sequence written known).2
  exact ⟨ticket, lane, sequence, written, found, lane_at, attached, known,
    follows.context_of_drained drained, length, length ▸ sized⟩

/-- What is added up over the sequences of a cache is added up over the running requests. -/
theorem sum_sequences (rest : c.AtRest p caches) (there : caches[place]? = some cache)
    {f : PagedSequence → Nat} {g : Nat → Nat}
    (same : ∀ written : PagedSequence, f written = g written.table.length) :
    (cache.sequences.values.map f).sum =
      (c.scheduler.running.map fun id => g (c.scheduler.occupiedBy id)).sum := by
  rw [rest.live.owned.sum_sequences (List.mem_of_getElem? there)]
  refine sum_map_congr fun id runs => ?_
  obtain ⟨ticket, lane, sequence, written, found, held⟩ := rest.holds runs there
  have attached : c.scheduler.sequenceOf? id = some sequence := by
    rw [Scheduler.sequenceOf?_of_found found, ← held.attached]
    exact (rest.live.consistent.alike id ticket found lane (Ticket.lane_mem held.lane_at)).symm
  rw [attached, Option.bind_some, held.found, Option.map_some, Option.getD_some, same, held.length,
    Scheduler.occupiedBy_of_found found]

/-- **The caches and the scheduler agree** between two steps. -/
theorem serves (rest : c.AtRest p caches) (there : caches[place]? = some cache) :
    cache.Serves place c.scheduler := by
  have owned := rest.live.owned
  have member := List.mem_of_getElem? there
  have sound := owned.sound cache member
  refine ⟨owned.keys_perm member, fun id runs => rest.holds runs there, sound.used, ?_, ?_,
    fun id waits sequence held => ?_⟩
  · rw [← sound.freeCount_add,
      rest.sum_sequences there (g := fun length => length ⌈/⌉ cache.pool.blockSize)
        fun _ => rfl]
  · rw [rest.sum_sequences there (g := fun length => length) fun _ => rfl,
      rest.live.consistent.occupied]
  · refine owned.absent_of_unheld (fun other runs same => ?_) cache member
    have here := owned.consistent.owner other id sequence same held
    exact owned.consistent.not_waiting_of_running runs (here ▸ waits)

end AtRest

end Cluster

namespace Engine

variable {p : Premises} {engine : Engine}

/-- **The caches and the scheduler agree** after any calls: every replica has a cache of the size it
was given, whose sequences and blocks are those of the running requests. -/
theorem serves_of_reached (reached : engine.Reached p) :
    ∃ caches : List PagedCache, engine.cluster.replicas = caches.map .paged ∧
      caches.map PagedCache.model = p.models ∧
      ∀ (place : Nat) (cache : PagedCache), caches[place]? = some cache →
        cache.Serves place engine.cluster.scheduler := by
  obtain ⟨caches, rest⟩ := reached.rests.rest
  exact ⟨caches, rest.live.owned.replicas, rest.live.models, fun _ _ there => rest.serves there⟩

/-- Two requests run until one of them is preempted, then the other one is given up. -/
def preemptingCalls : List Call :=
  [.submit (tinySubmission "a"), .submit (tinySubmission "b"), .step, .step, .step, .step, .step,
    .step, .abort "a"]

/-- The first request runs with a pending abort, the second one waits with an id that it retained,
and the caches hold the first one only. -/
theorem serves_of_reached_preempting : ∃ answers engine,
    tinyEngine.serve preemptingCalls = some (answers, engine) ∧ engine.Reached tinyPremises ∧
      engine.cluster.scheduler.running = ["a"] ∧ engine.cluster.scheduler.waiting = ["b"] ∧
      engine.cluster.scheduler.sequenceOf? "b" ≠ none ∧
      ∃ caches : List PagedCache, engine.cluster.replicas = caches.map .paged ∧
        caches.map PagedCache.model = tinyPremises.models ∧
        ∀ (place : Nat) (cache : PagedCache), caches[place]? = some cache →
          cache.Serves place engine.cluster.scheduler := by
  have state : ((tinyEngine.serve preemptingCalls).map Prod.snd).any (fun engine =>
      decide (engine.cluster.scheduler.running = ["a"]) &&
      decide (engine.cluster.scheduler.waiting = ["b"]) &&
      decide (engine.cluster.scheduler.sequenceOf? "b" ≠ none)) = true := by
    decide +kernel
  cases served : tinyEngine.serve preemptingCalls with
  | none =>
      rw [served] at state
      cases state
  | some ending =>
      obtain ⟨answers, engine⟩ := ending
      rw [served] at state
      simp only [Option.map_some, Option.any_some, Bool.and_eq_true, decide_eq_true_eq] at state
      have reached : engine.Reached tinyPremises :=
        ⟨tinyEngine, _, answers, starts_tinyEngine, served⟩
      exact ⟨answers, engine, rfl, reached, state.1.1, state.1.2, state.2,
        serves_of_reached reached⟩

end Engine

end ContinuousBatching
