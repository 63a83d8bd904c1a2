/-
**Nothing overflows.**

What an engine counts is made of two things: the positions of the inputs that it was given, and the
tokens that it committed on its first replica. At rest they account for everything that the next
step may count, up to one token more (`Cluster.AtRest.demand_eq`); a step only turns the ones into
the others, and a caller adds to them by submitting (`Engine.Within`). So a single condition on a
whole run keeps every call and every audit free of faults: all input lengths ever submitted, all
tokens ever committed, and one, are together below `Count.limit`.

* `Stepped.tokensDue_le`: a step does not count a token twice;
* `Engine.used_within`: one call or audit, with its effect on what may be counted;
* `Engine.faultless`: **any calls and audits**.
-/

import ContinuousBatching.Proofs.Engine.Safety

namespace ContinuousBatching

/-- What a caller does with an engine: a call, or an audit between two calls. -/
inductive Use where
  | call (call : Call)
  | audit
  deriving DecidableEq

namespace Use

/-- Carries a call or an audit out. -/
def run : Use → Action Engine Unit
  | .call made => discard made.run
  | .audit => do (← get).cluster.scheduler.audit

/-- The number of positions of the input that is handed in. -/
def inputLength : Use → Nat
  | .call (.submit submission) => positions submission.inputs
  | _ => 0

/-- Whether a request is handed in. -/
def submits : Use → Bool
  | .call (.submit _) => true
  | _ => false

end Use

/-- The number of tokens committed on the primary lanes. -/
def Cluster.tokens (c : Cluster) : Nat :=
  (c.scheduler.tickets.values.map fun ticket => ticket.primary.committed.length).sum

namespace Engine

/-- The number of tokens that are committed on the first replica. Only a step commits any, and it
does so before the first request reports. -/
def commits (engine : Engine) : Use → Nat
  | .call .step => engine.fed.tokens - engine.cluster.tokens
  | _ => 0

/-- The engine afterwards, refused or not; after a fault there is none. -/
def used (engine : Engine) (use : Use) : Except Fault Engine :=
  match use.run engine with
  | .ok _ after => .ok after
  | .error (.refused _) after => .ok after
  | .error (.fault kind) _ => .error kind

/-- Calls and audits, each with the engine that it is made on. A fault is the end. -/
def trail (engine : Engine) : List Use → List (Engine × Use)
  | [] => []
  | use :: rest =>
    (engine, use) :: match engine.used use with
      | .ok after => after.trail rest
      | .error _ => []

end Engine

/-! ### What may be counted -/

namespace Cluster

variable {p : Premises} {c d f : Cluster} {caches : List PagedCache} {batch : List RequestId}
  {records : List StreamRecord} {id : RequestId} {ticket : Ticket}

/-- The tokens counted so far, and those of the requests that are left, the first ones included. -/
def tokensDue (c : Cluster) : Nat := c.scheduler.totals.decodeLength + c.tokens

/-- **Between two steps** inputs and tokens account for the demand. -/
theorem AtRest.demand_eq (rest : c.AtRest p caches) :
    c.demand = c.prefillDue + c.tokensDue + 1 := by
  have extents : (c.scheduler.tickets.keys.map c.extent).sum =
      (c.scheduler.tickets.values.map fun ticket => ticket.request.inputLength).sum +
        c.tokens := by
    rw [tokens, ← List.sum_map_add, Registry.sum_values]
    refine sum_map_congr fun id known => ?_
    obtain ⟨ticket, found⟩ := Registry.mem_keys_iff.mp known
    have level := (rest.settled id ticket found).level _ Ticket.primary_mem_lanes
    rw [extent_of_found found, found, ← level]
    rfl
  rw [demand, extents, prefillDue, tokensDue]
  omega

/-- The number of requests that have a token. -/
def begun (c : Cluster) : Nat :=
  (c.scheduler.tickets.values.map fun ticket => min ticket.primary.committed.length 1).sum

/-- Requests that have a token have one more than is counted of them when they end. -/
theorem tokensDue_eq (c : Cluster) : c.tokensDue = c.decodeDue + c.begun := by
  have tokens : c.tokens =
      (c.scheduler.tickets.values.map Ticket.decodeLength).sum + c.begun := by
    rw [Cluster.tokens, begun, ← List.sum_map_add]
    refine sum_map_congr fun ticket _ => ?_
    rw [Ticket.decodeLength]
    omega
  rw [tokensDue, decodeDue, tokens, Nat.add_assoc]

/-- No request begins by reporting. -/
theorem Stepped.begun_le (stepped : Stepped p c batch d records f) : f.begun ≤ d.begun := by
  have lanes : ∀ id ∈ f.scheduler.tickets.keys, ∃ ticket next,
      d.scheduler.tickets.get? id = some ticket ∧ f.scheduler.tickets.get? id = some next ∧
        next.primary = ticket.primary := fun id known => by
    obtain ⟨next, now⟩ := Registry.mem_keys_iff.mp known
    obtain ⟨ticket, was, reported⟩ := stepped.lanes id next now
    exact ⟨ticket, next, was, now, reported.primary⟩
  have subset : f.scheduler.tickets.keys ⊆ d.scheduler.tickets.keys := fun id known => by
    obtain ⟨ticket, _, was, _⟩ := lanes id known
    exact Registry.mem_keys_iff.mpr ⟨ticket, was⟩
  rw [begun, begun, Registry.sum_values, Registry.sum_values]
  refine Nat.le_trans (Nat.le_of_eq (sum_map_congr fun id known => ?_))
    (sum_map_le_of_subset _ f.scheduler.tickets.nodup_keys subset)
  obtain ⟨ticket, next, was, now, same⟩ := lanes id known
  rw [was, now, Option.map_some, Option.map_some, same]

/-- **A step** counts no token twice. -/
theorem Stepped.tokensDue_le (stepped : Stepped p c batch d records f) :
    f.tokensDue ≤ c.tokensDue + (d.tokens - c.tokens) := by
  obtain ⟨_, grown⟩ := stepped.grown
  have begun := stepped.begun_le
  have fed : d.tokensDue = c.scheduler.totals.decodeLength + d.tokens := by
    rw [tokensDue, grown.silent.decodeLength]
  calc f.tokensDue = f.decodeDue + f.begun := tokensDue_eq f
    _ ≤ d.decodeDue + d.begun := by
        rw [stepped.balanced.decode]
        omega
    _ = c.scheduler.totals.decodeLength + d.tokens := (tokensDue_eq d).symm.trans fed
    _ ≤ c.tokensDue + (d.tokens - c.tokens) := by
        rw [tokensDue]
        omega

/-- A new request adds its input. -/
theorem due_of_added {request : Request} {count : Nat}
    (fresh : id ∉ c.scheduler.tickets.keys)
    (scheduler : d.scheduler = c.scheduler.added id (.ofRequest request count)) :
    d.prefillDue = c.prefillDue + request.inputLength ∧ d.tokensDue = c.tokensDue := by
  have sums : ∀ f : Ticket → Nat, (d.scheduler.tickets.values.map f).sum =
      f (.ofRequest request count) + (c.scheduler.tickets.values.map f).sum := by
    rw [scheduler]
    exact Registry.sum_values_insert fresh _
  have totals : d.scheduler.totals = c.scheduler.totals := by
    rw [scheduler]
    rfl
  constructor
  · rw [prefillDue, prefillDue, sums, totals]
    show _ + (request.inputLength + _) = _
    omega
  · rw [tokensDue, tokensDue, tokens, tokens, sums, totals]
    show _ + (0 + _) = _
    rw [Nat.zero_add]

/-- Giving a request up adds nothing. -/
theorem due_of_abort (consistent : c.scheduler.Consistent) (id : RequestId) :
    Meets (onScheduler (Scheduler.abort id)) c
      (fun _ d => d.prefillDue ≤ c.prefillDue ∧ d.tokensDue ≤ c.tokensDue) (fun _ d => d = c) := by
  rw [meets_onScheduler]
  refine (Scheduler.abort_meets consistent id).mono ?_ ?_
  · rintro _ _ (⟨_, ticket, found, rfl⟩ | ⟨waits, ids, _, rfl⟩)
    · have sums : ∀ f : Ticket → Nat, f ticket.abort = f ticket →
          ((c.scheduler.tickets.insert id ticket.abort).values.map f).sum ≤
            (c.scheduler.tickets.values.map f).sum := fun f same =>
        Nat.le_of_eq (Registry.sum_values_replace found same)
      exact ⟨Nat.add_le_add_left (sums (fun ticket => ticket.request.inputLength) rfl) _,
        Nat.add_le_add_left (sums (fun ticket => ticket.primary.committed.length) rfl) _⟩
    · obtain ⟨ticket, found⟩ := consistent.found_of_queued (List.mem_append_right _ waits)
      have sums : ∀ f : Ticket → Nat, ((c.scheduler.tickets.erase id).values.map f).sum ≤
          (c.scheduler.tickets.values.map f).sum := fun f => by
        rw [Registry.sum_values_erase found]
        exact Nat.le_add_left _ _
      exact ⟨Nat.add_le_add_left (sums _) _, Nat.add_le_add_left (sums _) _⟩
  · rintro _ _ ⟨rfl, _⟩
    rfl

end Cluster

namespace Engine

variable {p : Premises} {start engine after : Engine} {inputs tokens : Nat}

/-- What an engine at rest counted and may still count is within the inputs that it was given and
the tokens that it committed. -/
structure Within (p : Premises) (inputs tokens : Nat) (engine : Engine) : Prop where
  rests : engine.Rests p
  inputs : engine.cluster.prefillDue ≤ inputs
  tokens : engine.cluster.tokensDue ≤ tokens

theorem Starts.within (starts : start.Starts p) : start.Within p 0 0 ∧ start.named = 0 := by
  have rests := starts.rests
  obtain ⟨caches, built, _, _, ran, same⟩ := starts
  obtain ⟨_, rfl⟩ := (ofReplicas_yields _ _ _).of_ok ran
  rcases same with rfl | rfl
  · exact ⟨⟨rests, Nat.le_refl _, Nat.le_refl _⟩, rfl⟩
  · exact ⟨⟨rests, Nat.le_refl _, Nat.le_refl _⟩, rfl⟩

namespace Within

theorem mono {inputs' tokens' : Nat} (within : engine.Within p inputs tokens)
    (more : inputs ≤ inputs') (later : tokens ≤ tokens') : engine.Within p inputs' tokens' where
  rests := within.rests
  inputs := Nat.le_trans within.inputs more
  tokens := Nat.le_trans within.tokens later

theorem same (within : engine.Within p inputs tokens) (same : Same engine after) :
    after.Within p inputs tokens := by
  refine ⟨same.rests within.rests, ?_, ?_⟩
  · rw [same.cluster]
    exact within.inputs
  · rw [same.cluster]
    exact within.tokens

/-- What the next step may count. -/
theorem demand_le (within : engine.Within p inputs tokens) :
    engine.cluster.demand ≤ inputs + tokens + 1 := by
  obtain ⟨caches, rest⟩ := within.rests.rest
  rw [rest.demand_eq]
  exact Nat.succ_le_succ (Nat.add_le_add within.inputs within.tokens)

/-- There are no more sequence ids than memory can hold. -/
theorem fresh_lt (within : engine.Within p inputs tokens) :
    engine.cluster.scheduler.ids.fresh < Count.limit := by
  obtain ⟨caches, rest⟩ := within.rests.rest
  calc engine.cluster.scheduler.ids.fresh
      ≤ engine.cluster.scheduler.ids.capacity := rest.live.consistent.ids.bounded
    _ ≤ Memory.tableLimit := rest.live.storable
    _ < Count.limit := by decide

end Within

/-! ### One call -/

/-- Giving a request up adds nothing to what may be counted. -/
theorem abort_due (rests : engine.Rests p) (id : RequestId) :
    Meets (abort id) engine
      (fun _ after => after.cluster.prefillDue ≤ engine.cluster.prefillDue ∧
        after.cluster.tokensDue ≤ engine.cluster.tokensDue) (fun _ _ => True) := by
  obtain ⟨caches, rest⟩ := rests.rest
  unfold abort
  rw [meets_onCluster, meets_bind]
  refine (Cluster.due_of_abort rest.live.consistent id).mono ?_ (fun _ _ _ => trivial)
  rintro _ d due
  rw [Cluster.meets_record]
  exact due

/-- **One call.** It adds the input that it hands in and the tokens that it commits. -/
theorem call_within (within : engine.Within p inputs tokens) (call : Call) :
    Meets (Use.call call).run engine
      (fun _ after => after.Within p (inputs + (Use.call call).inputLength)
        (tokens + engine.commits (.call call)))
      (fun stop after => call.Stops p engine.cluster stop ∧
        ∀ cause, stop = .refused cause → after.Within p inputs tokens) := by
  have rests := within.rests
  cases call with
  | submit submission =>
      unfold Use.run Call.run
      rw [meets_discard, meets_map]
      refine ((submit_meets rests submission).and (submit_adds engine submission)).mono ?_ ?_
      · rintro id after ⟨⟨rests', _⟩, _, fresh, count, scheduler⟩
        obtain ⟨inputs', tokens'⟩ := Cluster.due_of_added fresh scheduler
        refine ⟨rests', ?_, ?_⟩
        · rw [inputs']
          exact Nat.add_le_add_right within.inputs _
        · rw [tokens']
          exact within.tokens
      · rintro stop after ⟨⟨stops, same⟩, _⟩
        exact ⟨stops, fun _ _ => within.same same⟩
  | abort id =>
      unfold Use.run Call.run
      rw [meets_discard, meets_map]
      refine ((abort_meets rests id).and (abort_due rests id)).mono ?_ ?_
      · rintro _ after ⟨⟨rests', _⟩, inputs', tokens'⟩
        exact ⟨rests', Nat.le_trans inputs' within.inputs, Nat.le_trans tokens' within.tokens⟩
      · rintro stop after ⟨⟨stops, same⟩, _⟩
        exact ⟨stops, fun _ _ => within.same same⟩
  | step =>
      unfold Use.run Call.run
      rw [meets_discard, meets_map]
      refine (step_advances rests).mono ?_ ?_
      · rintro report after ⟨rests', ⟨_, rfl⟩ | ⟨_, _, batch, records, stepped⟩⟩
        · exact ⟨rests', within.inputs, Nat.le_trans within.tokens (Nat.le_add_right _ _)⟩
        · refine ⟨rests', ?_, Nat.le_trans stepped.tokensDue_le ?_⟩
          · rw [stepped.prefillDue]
            exact within.inputs
          · exact Nat.add_le_add_right within.tokens _
      · rintro stop after ⟨_, ⟨rfl, large⟩ | ⟨rfl, rfl, _⟩⟩
        · exact ⟨.demand large, fun _ refused => by cases refused⟩
        · exact ⟨.refused, fun _ _ => within⟩

/-! ### Calls and audits -/

/-- **One call or audit.** Within the bound it ends without a fault, unless memory cannot hold the
lanes of a request. -/
theorem used_within (within : engine.Within p inputs tokens) (use : Use)
    (small : inputs + use.inputLength + tokens + 1 < Count.limit) :
    (∃ after, engine.used use = .ok after ∧
      after.Within p (inputs + use.inputLength) (tokens + engine.commits use)) ∨
    (engine.used use = .error .outOfMemory ∧ Memory.limit ≤ p.models.length * Lane.bytes) := by
  cases use with
  | audit =>
      obtain ⟨caches, rest⟩ := within.rests.rest
      have run : Use.audit.run engine = .ok () engine := by
        refine Meets.run_eq ?_
        unfold Use.run
        rw [meets_bind, meets_get, meets_liftM, rest.audit]
        exact ⟨rfl, rfl⟩
      refine Or.inl ⟨engine, ?_, within⟩
      rw [used, run]
  | call made =>
      rcases (call_within within made).ends with
        ⟨_, after, run, kept⟩ | ⟨_, after, run, stops, kept⟩
      · refine Or.inl ⟨after, ?_, kept⟩
        rw [used, run]
      · cases stops with
        | refused =>
            refine Or.inl ⟨after, ?_, (kept _ rfl).mono (Nat.le_add_right ..) (Nat.le_add_right ..)⟩
            rw [used, run]
        | input large =>
            have large : Count.limit ≤ (Use.call (.submit _)).inputLength := large
            omega
        | lanes large =>
            refine Or.inr ⟨?_, large⟩
            rw [used, run]
        | demand large =>
            have demand := within.demand_le
            omega

/-- What an action leads to is there if there is no fault. -/
theorem of_used {R : Engine → Engine → Prop} {use : Use} (leads : Leads R use.run engine)
    (ended : engine.used use = .ok after) : R engine after := by
  unfold used at ended
  rcases Meets.ends leads with ⟨_, _, run, led⟩ | ⟨stop, _, run, led⟩
  · rw [run] at ended
    cases ended
    exact led
  · rw [run] at ended
    cases stop with
    | refused cause =>
        cases ended
        exact led
    | fault kind => cases ended

/-- Only a submission uses a name up, and no more than one. -/
theorem run_named (use : Use) (engine : Engine) :
    Leads (fun before after => after.named ≤ before.named + if use.submits then 1 else 0) use.run
      engine := by
  have onCluster : ∀ {α : Type} (action : Action Cluster α),
      Leads (fun engine after => after.named ≤ engine.named) (onCluster action) engine :=
    fun action => (onCluster_keeps action engine).mono fun _ same => Nat.le_of_eq (by rw [same])
  unfold Use.run
  cases use with
  | audit =>
      rw [Leads, meets_bind, meets_get, meets_liftM]
      cases engine.cluster.scheduler.audit <;> exact Nat.le_refl _
  | call made =>
      unfold Call.run
      rw [Leads, meets_discard]
      cases made with
      | submit submission =>
          rw [meets_map]
          exact (submit_adds engine submission).mono (fun _ _ adds => adds.1)
            fun _ _ same => same.named
      | abort id =>
          rw [meets_map]
          exact onCluster _
      | step =>
          rw [meets_map]
          unfold step
          rw [meets_bind, meets_get]
          exact onCluster _

/-! ### Whole runs -/

/-- The number of tokens committed on the first replica in the course of calls and audits. -/
def tokensIn (engine : Engine) (uses : List Use) : Nat :=
  ((engine.trail uses).map fun moment => moment.1.commits moment.2).sum

/-- **Any calls and audits** on an engine that counted something before. The induction is on what is
still to come, with what came before as the bound so far. -/
theorem trail_within : ∀ {uses : List Use} {engine : Engine} {inputs tokens names : Nat},
    engine.Within p inputs tokens → engine.named ≤ names →
    inputs + (uses.map Use.inputLength).sum + (tokens + engine.tokensIn uses) + 1 < Count.limit →
    names + uses.countP Use.submits < Count.limit →
    ∀ moment ∈ engine.trail uses,
      (∃ after, moment.1.used moment.2 = .ok after ∧ after.named < Count.limit ∧
        after.cluster.scheduler.ids.fresh < Count.limit) ∨
      (moment.1.used moment.2 = .error .outOfMemory ∧
        Memory.limit ≤ p.models.length * Lane.bytes)
  | [], _, _, _, _, _, _, _, _ => fun _ member => by cases member
  | use :: rest, engine, inputs, tokens, names, within, named, small, few => by
      rw [tokensIn, trail, List.map_cons, List.sum_cons, List.map_cons, List.sum_cons] at small
      rw [List.countP_cons] at few
      intro moment member
      rw [trail] at member
      rcases used_within within use (by omega) with ⟨after, ended, within'⟩ | ⟨ended, large⟩
      · have named' := of_used (run_named use engine) ended
        rw [ended] at small member
        rcases List.mem_cons.mp member with rfl | later
        · exact Or.inl ⟨after, ended, by omega, within'.fresh_lt⟩
        · refine trail_within within' (Nat.le_trans named' (Nat.add_le_add_right named _)) ?_ ?_
            moment later
          · rw [tokensIn]
            dsimp only at small
            omega
          · omega
      · rw [ended] at member
        obtain rfl := List.mem_singleton.mp member
        exact Or.inr ⟨ended, large⟩

/-- **Freedom from faults.** Let a caller make any calls and audits on an engine over fresh caches.
If the inputs that were handed in, the tokens that were committed on the first replica and one are
together a count of 64 bits, and so is the number of submissions, then no call and no audit ends in
a fault, except that memory may be too small for a lane on every replica; and the counters of names
and of sequence ids stay within 64 bits. The one difference that is taken without a test, of what a
request occupies after and before a commit, is never negative. -/
theorem faultless {uses : List Use} (starts : start.Starts p)
    (small : (uses.map Use.inputLength).sum + start.tokensIn uses + 1 < Count.limit)
    (few : uses.countP Use.submits < Count.limit) :
    (∀ engine use, (engine, use) ∈ start.trail uses →
      (∃ after, engine.used use = .ok after ∧ after.named < Count.limit ∧
        after.cluster.scheduler.ids.fresh < Count.limit) ∨
      (engine.used use = .error .outOfMemory ∧ Memory.limit ≤ p.models.length * Lane.bytes)) ∧
    ∀ (ticket : Ticket) (replica : Nat) (sample : Sample),
      ticket.occupied ≤ (ticket.modifyLane replica fun lane => lane.commit sample).occupied := by
  obtain ⟨within, named⟩ := starts.within
  refine ⟨fun engine use member => ?_, Scheduler.occupied_le_commit⟩
  exact trail_within within (Nat.le_of_eq named) (by omega) (by omega) (engine, use) member

/-- Two caches whose blocks have a half and a quarter of all positions that can be counted. -/
def wideCaches : List PagedCache :=
  [.ofSize "first" 4 0x8000000000000000 Cluster.countTokens,
    .ofSize "second" 6 0x4000000000000000 Cluster.countTokens]

def widePremises : Premises where
  models := wideCaches.map PagedCache.model
  tokenizer := tinyPremises.tokenizer
  settings := ⟨8, 0xFFFFFFFFFFFFFFFF, 8, 4, 4⟩
  replicated := List.cons_ne_nil _ _
  divided := by decide
  lenient := tinyPremises.lenient

/-- An engine over these caches. -/
def wideEngine : Engine :=
  ⟨.ofReplicas (wideCaches.map .paged) 2 (.ofCapacity 8), widePremises.tokenizer,
    widePremises.settings, 0⟩

/-- Two long requests that run together, and one that is turned down. Of those that run, one is
given up and the other one goes on to its end. -/
def wideUses : List Use :=
  [.call (.submit ⟨some "a", [.tokens [1, 2], .embedding "image" 0x8000000000000000], .usual⟩),
    .audit,
    .call (.submit ⟨none, [.embedding "image" 0x7FFFFFFFFFFFFFF6],
      GenerationSettings.usual.withMaxTokens 3⟩),
    .call (.submit ⟨some "a", [.tokens [5]], .usual⟩), .call .step, .call .step,
    .call (.abort "a"), .audit, .call .step, .call .step, .audit]

theorem starts_wideEngine : wideEngine.Starts widePremises := by
  refine ⟨wideCaches, wideEngine, ?_, rfl, rfl, Or.inl rfl⟩
  simp [wideCaches, PagedCache.IsFresh, PagedCache.ofSize, BlockPool.ofSize]

/-- A run that comes as near to the bound as it may. -/
theorem faultless_wide : wideEngine.tokensIn wideUses = 5 ∧
    (wideUses.map Use.inputLength).sum + 5 + 1 = Count.limit - 1 ∧
    (wideEngine.trail wideUses).map Prod.snd = wideUses ∧
    ∀ engine use, (engine, use) ∈ wideEngine.trail wideUses →
      ∃ after, engine.used use = .ok after ∧ after.named < Count.limit ∧
        after.cluster.scheduler.ids.fresh < Count.limit := by
  have tokens : wideEngine.tokensIn wideUses = 5 := by decide +kernel
  have inputs : (wideUses.map Use.inputLength).sum + 5 + 1 = Count.limit - 1 := by decide +kernel
  have complete : (wideEngine.trail wideUses).map Prod.snd = wideUses := by decide +kernel
  have few : wideUses.countP Use.submits < Count.limit := by decide +kernel
  have small : (wideUses.map Use.inputLength).sum + wideEngine.tokensIn wideUses + 1 <
      Count.limit := by
    rw [tokens, inputs]
    decide
  refine ⟨tokens, inputs, complete, fun engine use member => ?_⟩
  rcases (faultless starts_wideEngine small few).1 engine use member with ended | ⟨_, large⟩
  · exact ended
  · exact absurd large (by decide)

end Engine

end ContinuousBatching
