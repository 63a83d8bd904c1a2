/-
**Requests of one length.**

Where nobody was given up and every request ends with its `n`-th token, steps go on as long as the
blocks of every model suffice for each request alone (`Request.FitsFor`), and not longer: a request
that has ended was fed all its tokens but the last, and had the blocks for them. So a run to
completion succeeds exactly if every request fits, whatever is admitted, batched and preempted on
the way, and what it has counted at the end is settled beforehand (`Cluster.final`).

* `Cluster.Stepped.placed`: whoever was fed has the blocks for all that it was fed;
* `Cluster.Uniform.lack_eq`, `Cluster.Course`: what a step keeps and what it shows, and so what a
  run of steps does;
* `Engine.step_courses`, `Engine.runToCompletion_courses`: one step, and **a run to completion**;
* `Engine.runToCompletion_serves`, `Engine.untold_of_serve`: such a run is a series of calls, which
  tell nothing to anybody else.
-/

import ContinuousBatching.Proofs.Engine.Bounds
import ContinuousBatching.Proofs.Engine.Termination

namespace ContinuousBatching

/-- The blocks of every model suffice for the input and the first `n` tokens but the last. -/
def Request.FitsFor (p : Premises) (request : Request) (n : Nat) : Prop :=
  ∀ model ∈ p.models,
    (request.inputLength + n - 1) ⌈/⌉ model.blockSize ≤ model.blockCount

/-- A reason that the rules give comes with the first token that ends the request. -/
theorem Concludes.judged {p : Premises} {request : Request} {n : Nat} {reason : FinishReason}
    (concludes : Concludes p request n reason) (ruled : reason ≠ .abort) :
    (∀ m < n, p.judgement request m = .ok none) ∧ p.judgement request n = .ok (some reason) := by
  cases concludes with
  | ended earlier now => exact ⟨earlier, now⟩
  | broken => exact absurd rfl ruled

/-- A request that ends with its `n`-th token goes on until it has that many. -/
theorem Told.goesOn_or_ends {p : Premises} {before : Terms} {after? : Option Terms} {n : Nat}
    {told : List (List TokenId × Option FinishReason)} (tells : Told p before told after?)
    (concludes : Concludes p before.request n .length) (wanted : before.abortRequested = false)
    (fewer : before.reported < n) :
    (∃ after, after? = some after ∧ after.request = before.request ∧
      after.abortRequested = false) ∨ (after? = none ∧ before.reported + 1 = n) := by
  obtain ⟨earlier, now⟩ := concludes.judged FinishReason.noConfusion
  have ends : p.judgement before.request (before.reported + 1) ≠ .ok none →
      before.reported + 1 = n := fun ended => by
    by_contra differ
    exact ended (earlier _ (by omega))
  cases tells with
  | nothing => exact Or.inl ⟨before, rfl, rfl, wanted⟩
  | next => exact Or.inl ⟨_, rfl, rfl, wanted⟩
  | last _ _ judged =>
      refine Or.inr ⟨rfl, ends fun none => ?_⟩
      rw [judged] at none
      cases none
  | broken _ judged =>
      have last := ends fun none => by
        rw [judged] at none
        cases none
      rw [last, now] at judged
      cases judged
  | givenUp given =>
      rw [wanted] at given
      cases given

/-- What is still to be counted of a request that ends with its `n`-th token, beyond the tokens that
it has. -/
def Ticket.lack (n : Nat) (ticket : Ticket) : Nat := n - 1 - ticket.decodeLength

namespace Cluster

variable {p : Premises} {n : Nat} {c d f : Cluster} {caches : List PagedCache}
  {batch : List RequestId} {records : List StreamRecord} {id : RequestId} {ticket : Ticket}

/-! ### Blocks -/

/-- A running request that was fed has the blocks for all its positions but the last. -/
theorem Live.ceilDiv_le (live : d.Live p caches) (runs : id ∈ d.scheduler.running)
    (found : d.scheduler.tickets.get? id = some ticket)
    (drained : ∀ lane ∈ ticket.lanes, lane.Drained) {length : Nat}
    (level : ∀ lane ∈ ticket.lanes, lane.committed.length = length) :
    ∀ model ∈ p.models,
      (ticket.request.inputLength + length - 1) ⌈/⌉ model.blockSize ≤
        model.blockCount := by
  intro model member
  obtain ⟨cache, inside, rfl⟩ := List.mem_map.mp (live.models ▸ member)
  obtain ⟨place, there⟩ := List.mem_iff_getElem?.mp inside
  obtain ⟨lane, lane_at⟩ := live.lane_at found there
  obtain ⟨sequence, written, _, _, held, follows⟩ := live.follows_at runs found lane_at there
  have fed := drained lane (Ticket.lane_mem lane_at)
  have positions := follows.length
  rw [fed.positions_next, level lane (Ticket.lane_mem lane_at)] at positions
  rw [← positions, Nat.add_sub_cancel]
  exact (live.owned.sound cache inside).ceilDiv_le held

/-- **Whoever was fed** has the blocks for all that it was fed. -/
theorem Stepped.placed (stepped : Stepped p c batch d records f) (fed : id ∈ batch)
    {terms : Terms} (known : c.terms? id = some terms) :
    terms.request.FitsFor p (terms.reported + 1) := by
  obtain ⟨caches, grown⟩ := stepped.grown
  have there := (grown.silent.terms id).trans known
  obtain ⟨ticket, found, rfl⟩ := Option.map_eq_some_iff.mp there
  have runs := grown.runs id fed
  refine grown.live.ceilDiv_le runs found (grown.drained id ticket found runs) fun lane member => ?_
  have level := grown.level id ticket found lane member
  rwa [if_pos fed] at level

/-! ### Uniform clusters -/

/-- Every request that is known ends with its `n`-th token, and nobody was given up. -/
structure Uniform (p : Premises) (n : Nat) (c : Cluster) : Prop where
  ends : ∀ id terms, c.terms? id = some terms → Concludes p terms.request n .length
  wanted : ∀ id terms, c.terms? id = some terms → terms.abortRequested = false

/-- The number of tokens that are counted when all requests have ended. -/
def final (n : Nat) (c : Cluster) : Nat :=
  c.scheduler.totals.decodeLength + (c.scheduler.tickets.values.map fun _ => n - 1).sum

namespace Uniform

theorem reported_lt (uniform : c.Uniform p n) (rest : c.AtRest p caches)
    (found : c.scheduler.tickets.get? id = some ticket) : ticket.reported < n := by
  obtain ⟨_, now⟩ :=
    (uniform.ends id _ (terms?_of_found found)).judged FinishReason.noConfusion
  by_contra most
  have goesOn := (rest.settled id ticket found).judged n (Nat.le_of_not_lt most)
  rw [show ticket.terms.request = ticket.request from rfl, goesOn] at now
  cases now

/-- Between two steps a request has fewer than `n` tokens. -/
theorem committed_le (uniform : c.Uniform p n) (rest : c.AtRest p caches)
    (found : c.scheduler.tickets.get? id = some ticket) :
    ticket.primary.committed.length ≤ n - 1 := by
  have fewer := uniform.reported_lt rest found
  have level := (rest.settled id ticket found).level _ Ticket.primary_mem_lanes
  omega

/-- What is demanded stays within the inputs and the tokens that are counted in the end. -/
theorem demand_le (uniform : c.Uniform p n) (rest : c.AtRest p caches) :
    c.demand ≤ c.prefillDue + c.final n + 1 := by
  have tokens : c.tokens ≤ (c.scheduler.tickets.values.map fun _ => n - 1).sum := by
    refine List.sum_le_sum fun ticket member => ?_
    obtain ⟨id, found⟩ := Registry.mem_values_iff.mp member
    exact uniform.committed_le rest found
  rw [rest.demand_eq, tokensDue, final]
  omega

/-- Requests that fit have their place. -/
theorem housed (uniform : c.Uniform p n) (rest : c.AtRest p caches)
    (fits : ∀ id terms, c.terms? id = some terms → terms.request.FitsFor p n) :
    c.Housed caches := by
  intro id known cache member
  obtain ⟨ticket, found⟩ := Registry.mem_keys_iff.mp known
  have model : cache.model ∈ p.models := by
    rw [← rest.live.models]
    exact List.mem_map_of_mem member
  have fewer := uniform.reported_lt rest found
  have extent : c.extent id ≤ ticket.request.inputLength + n - 1 := by
    rw [extent_of_found found]
    omega
  calc c.extent id ⌈/⌉ cache.pool.blockSize
      ≤ (ticket.request.inputLength + n - 1) ⌈/⌉ cache.pool.blockSize :=
        Count.ceilDiv_mono extent _
    _ ≤ cache.pool.blockCount := fits id _ (terms?_of_found found) cache.model model

/-- Nobody who is known was given up. -/
theorem givenUp_eq_false (uniform : c.Uniform p n) (id : RequestId) :
    c.scheduler.givenUp id = false := by
  rw [givenUp_eq]
  cases known : c.terms? id with
  | none => rfl
  | some terms => exact uniform.wanted id terms known

/-- Where all requests fit, a step is not turned down. -/
theorem not_jammed (uniform : c.Uniform p n) (rest : c.AtRest p caches) {slots : Nat}
    (positive : 0 < slots) (pending : c.scheduler.hasPending = true)
    (fits : ∀ id terms, c.terms? id = some terms → terms.request.FitsFor p n) :
    ¬ c.Jammed slots caches := by
  have housed := uniform.housed rest fits
  rintro ⟨closed, idle | starved⟩
  · exact housed.not_closed rest positive pending idle closed
  · obtain ⟨holder, _, given⟩ := housed.givenUp_of_starved rest starved
    rw [uniform.givenUp_eq_false] at given
    cases given

end Uniform

/-! ### A step -/

/-- What steps keep, and what they show of the requests that end. -/
structure Course (p : Premises) (n : Nat) (c f : Cluster) : Prop where
  uniform : f.Uniform p n
  prefill : f.prefillDue = c.prefillDue
  final : f.final n = c.final n
  earlier : ∀ id terms, f.terms? id = some terms →
    ∃ before, c.terms? id = some before ∧ before.request = terms.request
  fits : ∀ id terms, c.terms? id = some terms → f.terms? id = none → terms.request.FitsFor p n

theorem Course.refl (uniform : c.Uniform p n) : Course p n c c where
  uniform := uniform
  prefill := rfl
  final := rfl
  earlier := fun _ terms known => ⟨terms, known, rfl⟩
  fits := fun _ _ known gone => by
    rw [known] at gone
    cases gone

theorem Course.trans (first : Course p n c d) (second : Course p n d f) : Course p n c f where
  uniform := second.uniform
  prefill := second.prefill.trans first.prefill
  final := second.final.trans first.final
  earlier := fun id terms known => by
    obtain ⟨middle, there, same⟩ := second.earlier id terms known
    obtain ⟨before, was, equal⟩ := first.earlier id middle there
    exact ⟨before, was, equal.trans same⟩
  fits := fun id terms known gone => by
    cases there : d.terms? id with
    | none => exact first.fits id terms known there
    | some middle =>
        obtain ⟨before, was, same⟩ := first.earlier id middle there
        cases known.symm.trans was
        exact same ▸ second.fits id middle there gone

namespace Uniform

/-- What a step does to a request that is known. -/
theorem goesOn_or_ends (uniform : c.Uniform p n) (rest : c.AtRest p caches)
    (stepped : Stepped p c batch d records f) {terms : Terms} (known : c.terms? id = some terms) :
    (∃ after, f.terms? id = some after ∧ after.request = terms.request ∧
      after.abortRequested = false) ∨
    (f.terms? id = none ∧ terms.reported + 1 = n ∧ id ∈ batch) := by
  obtain ⟨ticket, found, rfl⟩ := Option.map_eq_some_iff.mp known
  have told := stepped.tells.known id _ known
  rcases told.goesOn_or_ends (uniform.ends id _ known) (uniform.wanted id _ known)
      (uniform.reported_lt rest found) with goesOn | ⟨gone, last⟩
  · exact Or.inl goesOn
  · refine Or.inr ⟨gone, last, ?_⟩
    by_contra unfed
    obtain ⟨_, grown⟩ := stepped.grown
    have wanted : d.scheduler.givenUp id = false := by
      rw [grown.silent.givenUp, uniform.givenUp_eq_false]
    rw [stepped.unfed id unfed wanted, known] at gone
    cases gone

/-- **What is lacking** of a request is the same after a step; nothing is, once it has ended. -/
theorem lack_eq (uniform : c.Uniform p n) (rest : c.AtRest p caches)
    (stepped : Stepped p c batch d records f) (id : RequestId) :
    ((f.scheduler.tickets.get? id).map (Ticket.lack n)).getD 0 =
      ((d.scheduler.tickets.get? id).map (Ticket.lack n)).getD 0 := by
  obtain ⟨_, grown⟩ := stepped.grown
  cases now : f.scheduler.tickets.get? id with
  | some next =>
      obtain ⟨ticket, was, reported⟩ := stepped.lanes id next now
      rw [was]
      show next.lack n = ticket.lack n
      rw [Ticket.lack, Ticket.lack, Ticket.decodeLength, Ticket.decodeLength, reported.primary]
  | none =>
      cases was : d.scheduler.tickets.get? id with
      | none => rfl
      | some ticket =>
          have known := (grown.silent.terms id).symm.trans (terms?_of_found was)
          have gone : f.terms? id = none := by rw [terms?, now, Option.map_none]
          obtain ⟨_, still, _⟩ | ⟨_, last, fed⟩ := uniform.goesOn_or_ends rest stepped known
          · rw [gone] at still
            cases still
          · have level := grown.level id ticket was _ Ticket.primary_mem_lanes
            have last : ticket.reported + 1 = n := last
            rw [if_pos fed] at level
            show 0 = n - 1 - (ticket.primary.committed.length - 1)
            omega

/-- What is counted in the end is what is counted or lacking now. -/
theorem final_eq (short : ∀ id ticket, c.scheduler.tickets.get? id = some ticket →
    ticket.decodeLength ≤ n - 1) :
    c.final n = c.decodeDue + (c.scheduler.tickets.values.map (Ticket.lack n)).sum := by
  have split : (c.scheduler.tickets.values.map fun _ => n - 1).sum =
      (c.scheduler.tickets.values.map Ticket.decodeLength).sum +
        (c.scheduler.tickets.values.map (Ticket.lack n)).sum := by
    rw [← List.sum_map_add]
    refine sum_map_congr fun ticket member => ?_
    obtain ⟨id, found⟩ := Registry.mem_values_iff.mp member
    have below := short id ticket found
    rw [Ticket.lack]
    omega
  rw [final, decodeDue, split, Nat.add_assoc]

/-- Whoever is known after a step was known before, and is not given up. -/
theorem known_before (uniform : c.Uniform p n) (rest : c.AtRest p caches)
    (stepped : Stepped p c batch d records f) {terms : Terms} (now : f.terms? id = some terms) :
    ∃ before, c.terms? id = some before ∧ before.request = terms.request ∧
      terms.abortRequested = false := by
  obtain ⟨before, was, _⟩ := stepped.earlier now
  obtain ⟨after, still, same, wanted⟩ | ⟨gone, _⟩ := uniform.goesOn_or_ends rest stepped was
  · cases now.symm.trans still
    exact ⟨before, was, same.symm, wanted⟩
  · rw [gone] at now
    cases now

theorem next (uniform : c.Uniform p n) (rest : c.AtRest p caches)
    (stepped : Stepped p c batch d records f) : f.Uniform p n where
  ends := fun id terms now => by
    obtain ⟨before, was, same, _⟩ := uniform.known_before rest stepped now
    exact same ▸ uniform.ends id before was
  wanted := fun id terms now => by
    obtain ⟨_, _, _, wanted⟩ := uniform.known_before rest stepped now
    exact wanted

/-- **What is counted in the end** is the same after a step. -/
theorem final_next (uniform : c.Uniform p n) (rest : c.AtRest p caches)
    (stepped : Stepped p c batch d records f) : f.final n = c.final n := by
  obtain ⟨_, grown⟩ := stepped.grown
  obtain ⟨_, rest'⟩ := stepped.rest
  have after : ∀ id ticket, f.scheduler.tickets.get? id = some ticket →
      ticket.decodeLength ≤ n - 1 := fun id ticket found =>
    Nat.le_trans (Nat.sub_le ..) ((uniform.next rest stepped).committed_le rest' found)
  have fed : ∀ id ticket, d.scheduler.tickets.get? id = some ticket →
      ticket.decodeLength ≤ n - 1 := fun id ticket was => by
    obtain ⟨before, there, same⟩ := grown.silent.found was
    have level := grown.level id ticket was _ Ticket.primary_mem_lanes
    have fewer := uniform.reported_lt rest there
    have reported : before.reported = ticket.reported := congrArg Terms.reported same
    rw [Ticket.decodeLength, level]
    split <;> omega
  have silent : d.final n = c.final n := by
    rw [final, final, grown.silent.decodeLength]
    refine congrArg _ (Registry.sum_values_congr fun id => ?_)
    have same := congrArg (Option.map fun _ => n - 1) (grown.silent.terms id)
    rwa [terms?, terms?, Option.map_map, Option.map_map] at same
  calc f.final n = f.decodeDue + (f.scheduler.tickets.values.map (Ticket.lack n)).sum :=
        final_eq after
    _ = d.decodeDue + (d.scheduler.tickets.values.map (Ticket.lack n)).sum := by
        rw [stepped.balanced.decode, Registry.sum_values_eq (uniform.lack_eq rest stepped)]
    _ = d.final n := (final_eq fed).symm
    _ = c.final n := silent

/-- **A step** of a uniform cluster. -/
theorem stepped (uniform : c.Uniform p n) (rest : c.AtRest p caches)
    (stepped : Stepped p c batch d records f) : Course p n c f where
  uniform := uniform.next rest stepped
  prefill := stepped.prefillDue
  final := uniform.final_next rest stepped
  earlier := fun id terms now => by
    obtain ⟨before, was, same, _⟩ := uniform.known_before rest stepped now
    exact ⟨before, was, same⟩
  fits := fun id terms known gone => by
    obtain ⟨_, still, _⟩ | ⟨_, last, fed⟩ := uniform.goesOn_or_ends rest stepped known
    · rw [gone] at still
      cases still
    · exact last ▸ stepped.placed fed known

end Uniform

end Cluster

/-- A call that does not submit it does nothing to a request that is not known. -/
theorem Call.Effect.of_unknown {p : Premises} {id : RequestId} {call : Call} {answer : Answer}
    {told : List (List TokenId × Option FinishReason)} {after? : Option Terms}
    (effect : Call.Effect p id call answer none told after?) (other : answer ≠ .named id) :
    told = [] ∧ after? = none := by
  cases effect with
  | nothing => exact ⟨rfl, rfl⟩
  | submitted => exact absurd rfl other

namespace Engine

variable {p : Premises} {n : Nat} {engine after : Engine}

/-! ### Runs of steps -/

/-- **A step** of an engine at rest. It is turned down only if some request does not fit. -/
theorem step_courses (rests : engine.Rests p) (uniform : engine.cluster.Uniform p n) :
    Meets step engine
      (fun _ after => after.Rests p ∧ Cluster.Course p n engine.cluster after.cluster ∧
        (engine.hasPending = true → after.cluster.left < engine.cluster.left))
      (fun stop _ => Overflows (engine.cluster.prefillDue + engine.cluster.final n + 1) stop ∨
        ∃ id terms, engine.cluster.terms? id = some terms ∧ ¬ terms.request.FitsFor p n ∧
          stop = .refused .outOfBlocks) := by
  obtain ⟨caches, rest⟩ := rests.rest
  refine (step_advances rests).mono ?_ ?_
  · rintro _ after ⟨rests', ⟨idle, rfl⟩ | ⟨_, _, batch, records, stepped⟩⟩
    · refine ⟨rests', .refl uniform, fun pending => ?_⟩
      rw [idle] at pending
      cases pending
    · exact ⟨rests', uniform.stepped rest stepped, fun _ => stepped.left_lt rest⟩
  · rintro stop after ⟨pending, large | ⟨refused, _, jammed, _⟩⟩
    · exact Or.inl (large.mono (uniform.demand_le rest))
    · refine Or.inr ?_
      rw [rest.live.owned.caches_eq] at jammed
      by_contra fitting
      refine uniform.not_jammed rest rests.slots pending (fun id terms known => ?_) jammed
      by_contra large
      exact fitting ⟨id, terms, known, large, refused⟩

/-- **A run of steps.** -/
theorem runSteps_courses {steps : Nat} (rests : engine.Rests p)
    (uniform : engine.cluster.Uniform p n) (enough : engine.cluster.left ≤ steps) :
    Meets (runSteps steps) engine
      (fun _ after => after.Rests p ∧ after.hasPending = false ∧
        Cluster.Course p n engine.cluster after.cluster)
      (fun stop _ => Overflows (engine.cluster.prefillDue + engine.cluster.final n + 1) stop ∨
        ∃ id terms, engine.cluster.terms? id = some terms ∧ ¬ terms.request.FitsFor p n ∧
          stop = .refused .outOfBlocks) := by
  refine (runSteps_ends (fun _ now => now.Rests p ∧
      Cluster.Course p n engine.cluster now.cluster) _ (fun _ _ so => so.1) ?_
    ⟨rests, .refl uniform⟩ enough).mono ?_ (fun _ _ stopped => stopped)
  · rintro _ now ⟨rests, course⟩ pending
    refine (step_courses rests course.uniform).mono ?_ ?_
    · rintro _ after ⟨rests', next, fewer⟩
      exact ⟨⟨rests', course.trans next⟩, fewer pending⟩
    · rintro stop _ (large | ⟨id, terms, known, large, refused⟩)
      · rw [course.prefill, course.final] at large
        exact Or.inl large
      · obtain ⟨before, was, same⟩ := course.earlier id terms known
        exact Or.inr ⟨id, before, was, same ▸ large, refused⟩
  · rintro _ after ⟨⟨rests', course⟩, idle, _⟩
    exact ⟨rests', idle, course⟩

/-- **A run to completion** of requests that end with their `n`-th token. It succeeds exactly if all
of them fit; then what is counted is what was to be counted in the end. -/
theorem runToCompletion_courses (rests : engine.Rests p) (uniform : engine.cluster.Uniform p n) :
    Meets runToCompletion engine
      (fun _ after => after.Rests p ∧ after.hasPending = false ∧
        after.cluster.scheduler.totals.occupied = 0 ∧
        after.cluster.scheduler.totals.prefillLength = engine.cluster.prefillDue ∧
        after.cluster.scheduler.totals.decodeLength = engine.cluster.final n ∧
        ∀ id terms, engine.cluster.terms? id = some terms → terms.request.FitsFor p n)
      (fun stop _ => Overflows (engine.cluster.prefillDue + engine.cluster.final n + 1) stop ∨
        ∃ id terms, engine.cluster.terms? id = some terms ∧ ¬ terms.request.FitsFor p n ∧
          stop = .refused .outOfBlocks) := by
  have enough : engine.cluster.left ≤ engine.stepBound :=
    Nat.le_trans (left_le_tokenBudget engine) (Nat.le_add_right ..)
  unfold runToCompletion
  rw [meets_bind, meets_get]
  refine (runSteps_courses rests uniform enough).mono ?_
    (fun _ _ stopped => stopped)
  rintro _ after ⟨rests', idle, course⟩
  obtain ⟨caches, rest⟩ := rests'.rest
  have empty : ∀ f : Ticket → Nat, (after.cluster.scheduler.tickets.values.map f).sum = 0 :=
    Scheduler.sum_values_of_idle idle
  refine ⟨rests', idle, ?_, ?_, ?_, fun id terms known =>
    course.fits id terms known (Cluster.terms?_of_idle idle id)⟩
  · rw [rest.live.consistent.occupied, (queues_of_idle rest.live.consistent idle).1]
    rfl
  · rw [← course.prefill, Cluster.prefillDue, empty, Nat.add_zero]
  · rw [← course.final, Cluster.final, empty, Nat.add_zero]

/-! ### Calls -/

/-- A run to completion is a series of calls. -/
theorem runToCompletion_serves (engine : Engine) :
    Meets runToCompletion engine
      (fun reports after => ∃ answers,
        engine.serve (List.replicate reports.length .step) = some (answers, after) ∧
          ∀ id, .named id ∉ answers)
      (fun _ _ => True) := by
  unfold runToCompletion
  rw [meets_bind, meets_get]
  refine (runSteps_keeps (fun done now => ∃ answers : List Answer,
      engine.serve (List.replicate done.length .step) = some (answers, now) ∧
        ∀ id, Answer.named id ∉ answers) (fun _ => True) ?_ engine.stepBound [] engine
    ⟨[], rfl, fun _ => List.not_mem_nil⟩).mono (fun _ _ kept => kept.1) (fun _ _ _ => trivial)
  rintro done now ⟨answers, served, unnamed⟩ _
  refine (Meets.anyhow step now).with_run.mono ?_ (fun _ _ _ => trivial)
  rintro report after ⟨_, run⟩
  rw [List.length_append, List.length_singleton]
  refine ⟨_, serve_steps served run, fun id named => ?_⟩
  rcases List.mem_append.mp named with earlier | now
  · exact unnamed id earlier
  · cases List.mem_singleton.mp now

/-- Calls tell nothing to whoever is not known, unless it is submitted. -/
theorem untold_of_serve (rests : engine.Rests p) {calls : List Call} {answers : List Answer}
    (served : engine.serve calls = some (answers, after)) {id : RequestId}
    (once : .named id ∉ answers) (unknown : engine.cluster.terms? id = none) :
    ∃ batches, after.cluster.delivered = engine.cluster.delivered ++ batches ∧
      toldOf id batches.flatten = [] := by
  induction calls generalizing engine answers with
  | nil =>
      cases served
      exact ⟨[], (List.append_nil _).symm, rfl⟩
  | cons call rest ih =>
      obtain ⟨first, middle, later, answered, onwards, rfl⟩ := serve_cons.mp served
      obtain ⟨rests', records, delivered, effects⟩ := rests.answered answered
      obtain ⟨other, once⟩ := not_or.mp (List.mem_cons.not.mp once)
      obtain ⟨silent, still⟩ := (unknown ▸ effects id).of_unknown (Ne.symm other)
      obtain ⟨batches, delivered', silent'⟩ := ih rests' onwards once still
      refine ⟨records ++ batches, ?_, ?_⟩
      · rw [delivered', delivered, List.append_assoc]
      · rw [List.flatten_append, toldOf_append, silent, silent', List.append_nil]

end Engine

end ContinuousBatching
