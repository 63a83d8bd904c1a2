/-
**A run to completion ends well.**

Where nobody was given up and every request fits alone, a step that is due succeeds, and somebody
has moved on afterwards: a request that was fed has a token less to generate, or it is gone. So the
tokens left to generate bound the steps of a run, whoever is preempted on the way. At the end nobody
is left, everything is free, and the ledger of all requests says what became of each.

* `Cluster.left`, `Stepped.left_lt`: the tokens left, and how a step brings them down;
* `Accounts.load_le`, `Accounts.fitting`: what the entries of the ledger bound;
* `Engine.runSteps_keeps`, `Engine.runSteps_ends`: what a run of steps keeps, and that it ends;
* `Engine.step_progresses`, `Engine.runSteps_meets`: one step, and a run of steps;
* `Engine.run_completes`: **total correctness** of a run to completion.
-/

import ContinuousBatching.Proofs.Engine.Ledger
import ContinuousBatching.Proofs.Engine.Stalls

namespace ContinuousBatching

/-! ### The tokens left -/

/-- The number of tokens that a request may still generate. -/
def Terms.left (terms : Terms) : Nat := max terms.request.settings.maxTokens 1 - terms.reported

/-- Whoever was told something has fewer tokens left, or is gone. -/
theorem Told.left_lt {p : Premises} {before : Terms} {after? : Option Terms}
    {told : List (List TokenId × Option FinishReason)} (tells : Told p before told after?)
    (goesOn : before.reported < max before.request.settings.maxTokens 1)
    (moved : after? ≠ some before) : (after?.map Terms.left).getD 0 < before.left := by
  have positive : 0 < before.left := Nat.sub_pos_of_lt goesOn
  cases tells with
  | nothing => exact absurd rfl moved
  | next =>
      show max before.request.settings.maxTokens 1 - (before.reported + 1) <
        max before.request.settings.maxTokens 1 - before.reported
      omega
  | last => exact positive
  | broken => exact positive
  | givenUp => exact positive

namespace Cluster

variable {p : Premises} {c d f : Cluster} {caches : List PagedCache} {batch : List RequestId}
  {records : List StreamRecord} {id : RequestId} {ticket : Ticket}

/-- The number of tokens that a request may still generate; none if it is not known. -/
def leftOf (c : Cluster) (id : RequestId) : Nat := ((c.terms? id).map Terms.left).getD 0

/-- The number of tokens that all requests may still generate. -/
def left (c : Cluster) : Nat := (c.scheduler.tickets.keys.map c.leftOf).sum

theorem leftOf_of_found (found : c.scheduler.tickets.get? id = some ticket) :
    c.leftOf id = max ticket.request.settings.maxTokens 1 - ticket.reported := by
  rw [leftOf, terms?_of_found found]
  rfl

/-- Where something is pending, a token is left. -/
theorem AtRest.left_pos (rest : c.AtRest p caches) (pending : c.scheduler.hasPending = true) :
    0 < c.left := by
  obtain ⟨id, known⟩ := List.exists_mem_of_ne_nil _ (Scheduler.hasPending_iff.mp pending)
  obtain ⟨ticket, found⟩ := Registry.mem_keys_iff.mp known
  calc 0 < max ticket.request.settings.maxTokens 1 - ticket.reported :=
        Nat.sub_pos_of_lt (rest.reported_lt found)
    _ = c.leftOf id := (leftOf_of_found found).symm
    _ ≤ c.left := le_sum_map c.leftOf known

/-- **A step brings the tokens left down.** -/
theorem Stepped.left_lt (rest : c.AtRest p caches) (stepped : Stepped p c batch d records f) :
    f.left < c.left := by
  have fewer : ∀ id terms, c.terms? id = some terms → f.terms? id ≠ some terms →
      f.leftOf id < c.leftOf id := by
    intro id terms known moved
    obtain ⟨ticket, found, rfl⟩ := Option.map_eq_some_iff.mp known
    have less := (stepped.tells.known id _ known).left_lt (rest.reported_lt found) moved
    rwa [leftOf, leftOf, known]
  have below : ∀ id ∈ c.scheduler.tickets.keys, f.leftOf id ≤ c.leftOf id := by
    intro id member
    obtain ⟨ticket, found⟩ := Registry.mem_keys_iff.mp member
    by_cases same : f.terms? id = some ticket.terms
    · have equal : f.leftOf id = c.leftOf id := by
        rw [leftOf, leftOf, same, terms?_of_found found]
      exact Nat.le_of_eq equal
    · exact Nat.le_of_lt (fewer id ticket.terms (terms?_of_found found) same)
  obtain ⟨id, terms, there, moved⟩ := stepped.moved
  obtain ⟨ticket, found, _⟩ := Option.map_eq_some_iff.mp there
  calc f.left ≤ (c.scheduler.tickets.keys.map f.leftOf).sum :=
        sum_map_le_of_subset f.leftOf f.scheduler.tickets.nodup_keys stepped.keys_subset
    _ < c.left := List.sum_lt_sum _ _ below
        ⟨id, Registry.mem_keys_iff.mpr ⟨ticket, found⟩, fewer id terms there moved⟩

end Cluster

/-! ### What the ledger bounds -/

/-- The positions of the input of a request, and of all the tokens that it may generate. -/
def Request.reach (request : Request) : Nat := request.inputLength + request.allowance

/-- A request fits alone. -/
def Request.Fits (p : Premises) (request : Request) : Prop :=
  FitsAlone p.models request.inputs request.settings

instance (p : Premises) (request : Request) : Decidable (request.Fits p) :=
  inferInstanceAs (Decidable (FitsAlone ..))

namespace Accounts

variable {p : Premises} {entries : List Entry} {c : Cluster} {caches : List PagedCache}

/-- A request that is known has an entry. -/
theorem request_mem (accounts : Accounts entries c) {id : RequestId} {ticket : Ticket}
    (found : c.scheduler.tickets.get? id = some ticket) :
    ticket.request ∈ entries.map Entry.request := by
  obtain ⟨entry, member, current, rfl⟩ :=
    accounts.entered id (Registry.mem_keys_iff.mpr ⟨ticket, found⟩)
  have tracks := accounts.tracks entry member
  rw [Entry.ticket?_of_current current, found] at tracks
  cases tracks with
  | going same _ _ => exact same ▸ List.mem_map_of_mem member

theorem fitting (accounts : Accounts entries c)
    (fits : ∀ request ∈ entries.map Entry.request, request.Fits p) : c.Fitting p := by
  intro id terms known
  obtain ⟨ticket, found, rfl⟩ := Option.map_eq_some_iff.mp known
  exact fits ticket.request (accounts.request_mem found)

/-- **The lengths counted in a step** are within what the requests of the ledger may take. -/
theorem load_le (accounts : Accounts entries c) (rest : c.AtRest p caches) :
    c.load ≤ ((entries.map Entry.request).map Request.reach).sum := by
  have weights : (c.scheduler.tickets.keys.map c.weight).sum =
      (c.scheduler.tickets.values.map fun ticket => ticket.request.inputLength).sum +
        (c.scheduler.tickets.values.map fun ticket => ticket.reported + 1).sum := by
    rw [← List.sum_map_add, Registry.sum_values]
    refine sum_map_congr fun id member => ?_
    obtain ⟨ticket, found⟩ := Registry.mem_keys_iff.mp member
    rw [Cluster.weight_of_found found, found]
    rfl
  -- a request that ended may have generated all its tokens, and one that is known has one left
  have each : ∀ entry ∈ entries,
      entry.committed - 1 + entry.counted c (fun ticket => ticket.reported + 1) ≤
        entry.request.allowance + entry.counted c Ticket.decodeLength := by
    intro entry member
    have within := accounts.within entry member
    have tracks := accounts.tracks entry member
    unfold Entry.counted
    cases found : entry.ticket? c with
    | none =>
        show entry.committed - 1 + 0 ≤ entry.request.allowance + 0
        omega
    | some ticket =>
        have fewer := rest.reported_lt (Entry.found_of_ticket? found)
        rw [found] at tracks
        cases tracks with
        | going same level _ =>
            rw [same] at fewer
            show entry.committed - 1 + (ticket.reported + 1) ≤
              max entry.request.settings.maxTokens 1 + (ticket.primary.committed.length - 1)
            omega
  have sums := List.sum_le_sum each
  have prefill := accounts.prefill
  have decode := accounts.decode
  have reaches : ((entries.map Entry.request).map Request.reach).sum =
      ((entries.map Entry.request).map Request.inputLength).sum +
        (entries.map fun entry => entry.request.allowance).sum := by
    rw [show Request.reach = fun request => request.inputLength + request.allowance from rfl,
      List.sum_map_add, List.map_map (g := Request.allowance)]
    rfl
  rw [List.sum_map_add, List.sum_map_add, accounts.sum_counted rfl,
    accounts.sum_counted rfl] at sums
  rw [Cluster.prefillDue] at prefill
  rw [Cluster.decodeDue] at decode
  rw [Cluster.load, weights, reaches]
  omega

end Accounts

namespace Engine

variable {p : Premises} {start engine after : Engine} {entries : List Entry}

/-- **Progress.** Where every request fits alone and nobody was given up, a step succeeds, and if
something was pending, fewer tokens are left. -/
theorem step_progresses (rests : engine.Rests p) (accounts : Accounts entries engine.cluster)
    (fits : ∀ request ∈ entries.map Entry.request, request.Fits p) :
    Meets step engine
      (fun _ after => after.Rests p ∧
        Accounts (entries.map (Entry.noted engine.fed (engine.deliveredSince after)))
          after.cluster ∧
        (engine.hasPending = true → after.cluster.left < engine.cluster.left))
      (fun stop _ => Overflows ((entries.map Entry.request).map Request.reach).sum stop) := by
  obtain ⟨caches, rest⟩ := rests.rest
  have fitting := accounts.fitting fits
  refine (step_advances rests).mono ?_ ?_
  · rintro report after ⟨rests', advanced⟩
    refine ⟨rests', accounts_advanced rests accounts advanced, fun pending => ?_⟩
    rcases advanced with ⟨idle, _⟩ | ⟨_, _, batch, records, stepped⟩
    · rw [idle] at pending
      cases pending
    · exact stepped.left_lt rest
  · rintro stop after ⟨pending, large | ⟨_, _, ⟨closed, idle | starved⟩, _⟩⟩
    · have somebody := Scheduler.hasPending_iff.mp pending
      exact large.mono (Nat.le_trans (Cluster.demand_le_load somebody) (accounts.load_le rest))
    · rw [rest.live.owned.caches_eq] at closed
      exact absurd closed (rest.not_closed fitting rests.slots pending idle)
    · rw [rest.live.owned.caches_eq] at starved
      obtain ⟨holder, _, given⟩ := rest.givenUp_of_starved fitting starved
      rw [Cluster.givenUp_eq, Option.any_eq_true] at given
      obtain ⟨terms, known, marked⟩ := given
      rw [accounts.wanted holder terms known] at marked
      cases marked

/-- The tokens left are within those that the requests may generate. -/
theorem left_le_tokenBudget (engine : Engine) : engine.cluster.left ≤ engine.tokenBudget := by
  have budget : engine.tokenBudget = (engine.cluster.scheduler.tickets.values.map fun ticket =>
      max ticket.request.settings.maxTokens 1).sum := rfl
  rw [budget, Registry.sum_values]
  refine List.sum_le_sum fun id member => ?_
  obtain ⟨ticket, found⟩ := Registry.mem_keys_iff.mp member
  rw [Cluster.leftOf_of_found found, found]
  exact Nat.sub_le _ _

theorem answer_step {report : StepReport} (run : step engine = .ok report after) :
    engine.answer .step = some (.stepped report, after) := by
  have called : Call.step.run engine = .ok (.stepped report) after := by
    show EStateM.map _ step engine = _
    rw [EStateM.map, run]
  rw [answer, called]

/-- One step more. -/
theorem serve_steps {steps : Nat} {answers : List Answer} {report : StepReport} {last : Engine}
    (served : engine.serve (List.replicate steps .step) = some (answers, after))
    (run : step after = .ok report last) :
    engine.serve (List.replicate (steps + 1) .step) =
      some (answers ++ [.stepped report], last) := by
  rw [List.replicate_succ']
  exact serve_append served (serve_cons.mpr ⟨_, last, [], answer_step run, rfl, rfl⟩)

/-- **A run of steps** keeps what every step keeps that something is pending for. The induction is
on the number of steps allowed. -/
theorem runSteps_keeps (kept : List StepReport → Engine → Prop) (stops : Stop → Prop)
    (advances : ∀ done engine, kept done engine → engine.hasPending = true →
      Meets step engine (fun report after => kept (done ++ [report]) after)
        (fun stop _ => stops stop)) :
    ∀ (steps : Nat) (done : List StepReport) (engine : Engine), kept done engine →
      Meets (runSteps steps) engine
        (fun reports after => kept (done ++ reports) after ∧
          (after.hasPending = true → reports.length = steps))
        (fun stop _ => stops stop)
  | 0, done, engine, begun => ⟨(List.append_nil done).symm ▸ begun, fun _ => rfl⟩
  | steps + 1, done, engine, begun => by
      unfold runSteps
      rw [meets_bind, meets_get]
      cases pending : engine.hasPending with
      | false =>
          rw [if_neg Bool.false_ne_true]
          refine ⟨(List.append_nil done).symm ▸ begun, fun still => ?_⟩
          rw [pending] at still
          cases still
      | true =>
          rw [if_pos rfl, meets_bind]
          refine (advances done engine begun pending).mono ?_ (fun _ _ stopped => stopped)
          rintro report after advanced
          rw [meets_bind]
          refine (runSteps_keeps kept stops advances steps _ after advanced).mono ?_
            (fun _ _ stopped => stopped)
          rintro later last ⟨ended, all⟩
          rw [List.append_assoc] at ended
          exact ⟨ended, fun still => congrArg Nat.succ (all still)⟩

/-- **A run of steps ends** when nothing is pending if every step leaves fewer tokens, and as many
steps are allowed as there are tokens left. -/
theorem runSteps_ends (kept : List StepReport → Engine → Prop) (stops : Stop → Prop)
    (rests : ∀ done engine, kept done engine → engine.Rests p)
    (advances : ∀ done engine, kept done engine → engine.hasPending = true →
      Meets step engine
        (fun report after => kept (done ++ [report]) after ∧
          after.cluster.left < engine.cluster.left)
        (fun stop _ => stops stop))
    {steps : Nat} (begun : kept [] engine) (enough : engine.cluster.left ≤ steps) :
    Meets (runSteps steps) engine
      (fun reports after => kept reports after ∧ after.hasPending = false ∧
        reports.length ≤ engine.cluster.left)
      (fun stop _ => stops stop) := by
  refine (runSteps_keeps (fun done now => kept done now ∧
    done.length + now.cluster.left ≤ engine.cluster.left) stops ?_ steps [] engine
      ⟨begun, Nat.le_of_eq (Nat.zero_add _)⟩).mono ?_ (fun _ _ stopped => stopped)
  · rintro done now ⟨so, bounded⟩ pending
    refine (advances done now so pending).mono ?_ (fun _ _ stopped => stopped)
    rintro report after ⟨so', fewer⟩
    refine ⟨so', ?_⟩
    rw [List.length_append, List.length_singleton]
    omega
  · rintro reports after ⟨⟨so, bounded⟩, all⟩
    rw [List.nil_append] at so bounded
    refine ⟨so, Bool.eq_false_iff.mpr fun pending => ?_, by omega⟩
    obtain ⟨_, rest⟩ := (rests _ _ so).rest
    have length := all pending
    have positive := rest.left_pos pending
    omega

/-- Steps accept nobody. -/
theorem requests_ledger_steps (engine : Engine) (entries : List Entry) (n : Nat) :
    (engine.ledger entries (List.replicate n .step)).map Entry.request =
      entries.map Entry.request := by
  induction n generalizing engine entries with
  | zero => rfl
  | succ n ih =>
      rw [List.replicate_succ, ledger]
      cases answered : engine.answer .step with
      | none => rfl
      | some both =>
          obtain ⟨answer, after⟩ := both
          refine (ih after _).trans ?_
          cases answer with
          | stepped report => exact Entry.map_request_noted ..
          | named id => rfl
          | done => rfl
          | refused cause => rfl

/-- **A run of steps** where every request fits alone. -/
theorem runSteps_meets (steps : Nat) (engine : Engine) (entries : List Entry)
    (rests : engine.Rests p) (accounts : Accounts entries engine.cluster)
    (fits : ∀ request ∈ entries.map Entry.request, request.Fits p)
    (enough : engine.cluster.left ≤ steps) :
    Meets (runSteps steps) engine
      (fun reports after => reports.length ≤ engine.cluster.left ∧ after.hasPending = false ∧
        after.Rests p ∧
        Accounts (engine.ledger entries (List.replicate reports.length .step)) after.cluster)
      (fun stop _ => Overflows ((entries.map Entry.request).map Request.reach).sum stop) := by
  refine (runSteps_ends (fun done now => now.Rests p ∧
      (∃ answers, engine.serve (List.replicate done.length .step) = some (answers, now)) ∧
      Accounts (engine.ledger entries (List.replicate done.length .step)) now.cluster) _
    (fun _ _ so => so.1) ?_ ⟨rests, ⟨[], rfl⟩, accounts⟩ enough).mono ?_ (fun _ _ large => large)
  · rintro done now ⟨rests, ⟨answers, served⟩, accounts⟩ pending
    have requests := requests_ledger_steps engine entries done.length
    refine (step_progresses rests accounts (requests ▸ fits)).with_run.mono ?_
      (fun _ _ large => requests ▸ large)
    rintro report after ⟨⟨rests', accounts', fewer⟩, run⟩
    refine ⟨⟨rests', ?_, ?_⟩, fewer pending⟩ <;>
      rw [List.length_append, List.length_singleton]
    · exact ⟨_, serve_steps served run⟩
    · rw [List.replicate_succ', ledger_append _ served, ledger, answer_step run]
      exact accounts'
  · rintro reports after ⟨⟨rests', _, accounts'⟩, idle, bounded⟩
    exact ⟨bounded, idle, rests', accounts'⟩

/-- Where nothing is pending, nobody is in a queue. -/
theorem queues_of_idle {s : Scheduler} (consistent : s.Consistent) (idle : s.hasPending = false) :
    s.running = [] ∧ s.waiting = [] := by
  refine List.append_eq_nil_iff.mp (List.eq_nil_iff_forall_not_mem.mpr fun id queued => ?_)
  rw [consistent.known, Scheduler.keys_of_idle idle] at queued
  cases queued

/-- Nobody is left and everything is free. The ledger has an entry for each of these requests, which
was told that it ended once, in its last record; and the totals are those of all entries. -/
structure Completed (p : Premises) (requests : List Request) (entries : List Entry)
    (engine : Engine) : Prop where
  tickets : engine.cluster.scheduler.tickets.keys = []
  running : engine.cluster.scheduler.running = []
  waiting : engine.cluster.scheduler.waiting = []
  ids : engine.cluster.scheduler.ids.live = []
  caches : ∃ caches : List PagedCache, engine.cluster.replicas = caches.map .paged ∧
    caches.map PagedCache.model = p.models ∧ ∀ cache ∈ caches,
      cache.sequences.keys = [] ∧ cache.pool.freeCount = cache.pool.blockCount
  entered : entries.map Entry.request = requests
  ended : ∀ entry ∈ entries, entry.Ended
  occupied : engine.cluster.scheduler.totals.occupied = 0
  prefill : engine.cluster.scheduler.totals.prefillLength =
    (requests.map Request.inputLength).sum
  decode : engine.cluster.scheduler.totals.decodeLength =
    (entries.map fun entry => entry.committed - 1).sum

/-- Where nothing is pending, everybody has ended. -/
theorem Completed.of_idle (rests : engine.Rests p) (accounts : Accounts entries engine.cluster)
    (idle : engine.hasPending = false) :
    engine.Completed p (entries.map Entry.request) entries := by
  obtain ⟨caches, rest⟩ := rests.rest
  have consistent := rest.live.consistent
  have nobody : engine.cluster.scheduler.tickets.keys = [] := Scheduler.keys_of_idle idle
  have unknown : ∀ id, engine.cluster.scheduler.tickets.get? id = none :=
    Scheduler.get?_of_idle idle
  obtain ⟨running, waiting⟩ := queues_of_idle consistent idle
  have counted : ∀ f : Ticket → Nat,
      (engine.cluster.scheduler.tickets.values.map f).sum = 0 :=
    Scheduler.sum_values_of_idle idle
  refine ⟨nobody, running, waiting, ?_, ⟨caches, rest.live.owned.replicas, rest.live.models,
    fun cache member => ⟨rest.sequences_of_idle running member,
      rest.freeCount_of_idle running member⟩⟩, rfl, fun entry member => ?_, ?_, ?_, ?_⟩
  · refine List.eq_nil_iff_forall_not_mem.mpr fun sequence live => ?_
    obtain ⟨id, held⟩ := (consistent.live sequence).mp live
    rw [Scheduler.sequenceOf?, unknown] at held
    cases held
  · have tracks := accounts.tracks entry member
    rw [Entry.ticket?, unknown, ite_self] at tracks
    cases tracks with
    | ended finished => exact finished
  · rw [consistent.occupied, running]
    rfl
  · rw [accounts.prefill, Cluster.prefillDue, counted, Nat.add_zero]
  · rw [accounts.decode, Cluster.decodeDue, counted, Nat.add_zero]

/-- **Total correctness of a run to completion.** After any submissions and steps, where every
request that was accepted fits alone, a run to completion succeeds, unless all that these requests
may take together needs more than 64 bits. It takes no more steps than the pending requests may
generate tokens; and at the end nobody is left, everything is free, every request that was ever
accepted was told that it ended once, in its last record, and the totals are those of all these
requests. -/
theorem run_completes {calls : List Call} {answers : List Answer} (starts : start.Starts p)
    (served : start.serve calls = some (answers, engine)) (wanted : ∀ id, .abort id ∉ calls)
    (fits : ∀ request ∈ accepted calls answers, request.Fits p) :
    (∃ reports after, runToCompletion engine = .ok reports after ∧
      reports.length ≤ engine.tokenBudget ∧
      after.Completed p (accepted calls answers)
        (start.ledger [] (calls ++ List.replicate reports.length .step))) ∨
    (∃ after, runToCompletion engine = .error (.fault .overflow) after ∧
      Count.limit ≤ ((accepted calls answers).map Request.reach).sum) := by
  have rests := starts.rests.served served
  have accounts := accounts_served starts.rests starts.accounts wanted served
  have requests : (start.ledger [] calls).map Entry.request = accepted calls answers :=
    requests_ledger served
  have bounded := left_le_tokenBudget engine
  have enough : engine.cluster.left ≤ engine.stepBound :=
    Nat.le_trans bounded (Nat.le_add_right ..)
  have run : Meets runToCompletion engine
      (fun reports after => reports.length ≤ engine.cluster.left ∧ after.hasPending = false ∧
        after.Rests p ∧ Accounts
          (engine.ledger (start.ledger [] calls) (List.replicate reports.length .step))
          after.cluster)
      (fun stop _ => Overflows ((accepted calls answers).map Request.reach).sum stop) := by
    unfold runToCompletion
    rw [meets_bind, meets_get, ← requests]
    exact runSteps_meets engine.stepBound engine _ rests accounts (requests ▸ fits) enough
  rcases run.ends with ⟨reports, after, ran, fewer, idle, rests', accounts'⟩ |
    ⟨_, after, ran, rfl, large⟩
  · refine Or.inl ⟨reports, after, ran, Nat.le_trans fewer bounded, ?_⟩
    rw [ledger_append _ served, ← requests, ← requests_ledger_steps engine _ reports.length]
    exact .of_idle rests' accounts' idle
  · exact Or.inr ⟨after, ran, large⟩

/-- A request of one token that ends at once, so that its name is free again, and two requests that
do not fit together to their ends. -/
def reusingCalls : List Call :=
  [.submit ((tinySubmission "a").withMaxTokens 1), .step, .submit (tinySubmission "a"),
    .submit (tinySubmission "b"), .submit (tinySubmission "b"), .step, .step]

/-- A run that preempts a request on the way. -/
theorem run_completes_reusing : ∃ answers engine reports after,
    tinyEngine.serve reusingCalls = some (answers, engine) ∧
      (accepted reusingCalls answers).map Request.id = ["a", "a", "b"] ∧
      runToCompletion engine = .ok reports after ∧ ["b"] ∈ reports.map StepReport.preempted ∧
      reports.length ≤ engine.tokenBudget ∧
      after.Completed tinyPremises (accepted reusingCalls answers)
        (tinyEngine.ledger [] (reusingCalls ++ List.replicate reports.length .step)) := by
  have state : (tinyEngine.serve reusingCalls).any (fun (ending : List Answer × Engine) =>
      decide (∀ request ∈ accepted reusingCalls ending.1, request.Fits tinyPremises) &&
      decide ((accepted reusingCalls ending.1).map Request.id = ["a", "a", "b"]) &&
      decide (((accepted reusingCalls ending.1).map Request.reach).sum < Count.limit) &&
      (completed runToCompletion ending.2).any fun run =>
        decide (["b"] ∈ run.1.map StepReport.preempted)) = true := by
    decide +kernel
  obtain ⟨⟨answers, engine⟩, served, state⟩ := Option.any_eq_true .. |>.mp state
  simp only [Bool.and_eq_true, decide_eq_true_eq] at state
  obtain ⟨⟨⟨fits, names⟩, short⟩, preempts⟩ := state
  have wanted : ∀ id, .abort id ∉ reusingCalls := by simp [reusingCalls]
  rcases run_completes starts_tinyEngine served wanted fits with
    ⟨reports, after, ran, bounded, completed⟩ | ⟨_, _, large⟩
  · rw [completed_eq_some.mpr ran] at preempts
    exact ⟨answers, engine, reports, after, served, names, ran, of_decide_eq_true preempts, bounded,
      completed⟩
  · exact absurd short (Nat.not_lt.mpr large)

end Engine

end ContinuousBatching
