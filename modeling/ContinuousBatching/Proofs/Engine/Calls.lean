/-
**Calls of an engine.**

A caller submits requests, gives them up, and lets the engine take steps, in any order and on after
a refusal (`Engine.serve`). An engine is *reached* if it comes from fresh caches in that way.

* `Call.Effect` says what a call may tell about a request and do to it;
* `Call.Stops` says why a call may stop;
* `Engine.submit_rule`: what has to be known of the parts of a submission;
* `Engine.submit_meets`, `Engine.abort_meets`, `Engine.step_meets`: the calls of an engine at rest;
* `Engine.Reached.rests`: every engine that is reached is at rest, and
  `Engine.Rests.answered` gives the effect of its next call.
-/

import ContinuousBatching.Proofs.Engine.Completion
import ContinuousBatching.Proofs.Scheduler.Histories

namespace ContinuousBatching

/-- What a caller asks of an engine. -/
inductive Call where
  | submit (submission : Submission)
  | abort (id : RequestId)
  | step
  deriving DecidableEq

/-- What an engine answers. -/
inductive Answer where
  | named (id : RequestId)
  | done
  | stepped (report : StepReport)
  | refused (cause : Failure)
  deriving DecidableEq

/-- Carries a call out. -/
def Call.run : Call → Action Engine Answer
  | .submit submission => Answer.named <$> Engine.submit submission
  | .abort id => (fun _ => Answer.done) <$> Engine.abort id
  | .step => Answer.stepped <$> Engine.step

/-- A reason to stop that lies outside: a refusal, a count that needs more than 64 bits, or memory
that does not suffice. -/
def Stop.Outside (stop : Stop) : Prop := stop.Plain ∨ stop = .fault .outOfMemory

/-- Why a call stops: it is refused, or something that it counts or holds is too large. -/
inductive Call.Stops (p : Premises) (c : Cluster) : Call → Stop → Prop
  | refused {call : Call} {cause : Failure} : Stops p c call (.refused cause)
  /-- The input has too many positions. -/
  | input {submission : Submission} (large : Count.limit ≤ positions submission.inputs) :
      Stops p c (.submit submission) (.fault .overflow)
  /-- There are too many replicas for the lanes of a request. -/
  | lanes {submission : Submission} (large : Memory.limit ≤ p.models.length * Lane.bytes) :
      Stops p c (.submit submission) (.fault .outOfMemory)
  /-- What the requests demand needs more than 64 bits. -/
  | demand (large : Count.limit ≤ c.demand) : Stops p c .step (.fault .overflow)

theorem Call.Stops.outside {p : Premises} {c : Cluster} {call : Call} {stop : Stop}
    (stops : call.Stops p c stop) : stop.Outside := by
  cases stops with
  | refused => exact Or.inl (Or.inr ⟨_, rfl⟩)
  | input => exact Or.inl (Or.inl rfl)
  | lanes => exact Or.inr rfl
  | demand => exact Or.inl (Or.inl rfl)

/-- Something is pending exactly if a request is known. -/
theorem Scheduler.hasPending_iff {s : Scheduler} : s.hasPending = true ↔ s.tickets.keys ≠ [] := by
  rw [hasPending, Registry.isEmpty, Registry.keys, Bool.not_eq_true', List.isEmpty_eq_false_iff,
    ne_eq, ne_eq, List.map_eq_nil_iff]

theorem Scheduler.keys_of_idle {s : Scheduler} (idle : s.hasPending = false) :
    s.tickets.keys = [] := by
  by_contra somebody
  rw [hasPending_iff.mpr somebody] at idle
  cases idle

theorem Scheduler.get?_of_idle {s : Scheduler} (idle : s.hasPending = false) (id : RequestId) :
    s.tickets.get? id = none :=
  Registry.get?_eq_none_iff.mpr (keys_of_idle idle ▸ List.not_mem_nil)

theorem Scheduler.sum_values_of_idle {s : Scheduler} (idle : s.hasPending = false)
    (f : Ticket → Nat) : (s.tickets.values.map f).sum = 0 := by
  rw [Registry.sum_values, keys_of_idle idle]
  rfl

theorem Cluster.terms?_of_idle {c : Cluster} (idle : c.scheduler.hasPending = false)
    (id : RequestId) : c.terms? id = none := by
  rw [terms?, Scheduler.get?_of_idle idle, Option.map_none]

/-- What a call may do to a request: what was known about it, what it is told, and what is known
afterwards. -/
inductive Call.Effect (p : Premises) (id : RequestId) : Call → Answer → Option Terms →
    List (List TokenId × Option FinishReason) → Option Terms → Prop
  | nothing {call : Call} {answer : Answer} {known : Option Terms} (other : answer ≠ .named id) :
      Effect p id call answer known [] known
  | submitted {submission : Submission} :
      Effect p id (.submit submission) (.named id) none []
        (some ⟨⟨id, submission.inputs, submission.settings⟩, 0, none, false⟩)
  /-- It runs, and will end with its next report. -/
  | marked {terms : Terms} :
      Effect p id (.abort id) .done (some terms) [] (some { terms with abortRequested := true })
  /-- It waits, and is forgotten at once. -/
  | dropped {terms : Terms} : Effect p id (.abort id) .done (some terms) [] none
  | told {report : StepReport} {terms : Terms} {known : Option Terms}
      {told : List (List TokenId × Option FinishReason)} (tells : Told p terms told known) :
      Effect p id .step (.stepped report) (some terms) told known

namespace Cluster

variable {p : Premises} {c : Cluster} {caches : List PagedCache}

/-- **A new request.** -/
theorem add_meets (rest : c.AtRest p caches) (request : Request) :
    Meets (onScheduler (Scheduler.add request)) c
      (fun _ d => d.AtRest p caches ∧ d.delivered = c.delivered ∧ c.terms? request.id = none ∧
        ∀ other, d.terms? other =
          if other = request.id then some ⟨request, 0, none, false⟩ else c.terms? other)
      (fun stop d => d = c ∧ ((∃ cause, stop = .refused cause) ∨
        (stop = .fault .outOfMemory ∧ Memory.limit ≤ p.models.length * Lane.bytes))) := by
  rw [meets_onScheduler]
  refine (Scheduler.add_meets request c.scheduler).mono ?_ ?_
  · rintro _ _ ⟨fresh, asked, rfl⟩
    let ticket : Ticket := .ofRequest request c.scheduler.laneCount
    have tickets : ∀ other, (c.scheduler.added request.id ticket).tickets.get? other =
        if other = request.id then some ticket else c.scheduler.tickets.get? other :=
      fun other => Registry.get?_insert ..
    refine ⟨⟨rest.live.added fresh asked rfl rfl, fun other ticket found => ?_⟩, rfl, ?_,
      fun other => ?_⟩
    · replace found := (tickets other).symm.trans found
      split at found
      · rename_i same
        cases found
        refine ⟨fun lane member => ?_, rfl, fun _ => rfl, fun runs => ?_, fun n le => ?_⟩
        · rcases List.mem_cons.mp member with rfl | other
          · rfl
          · obtain ⟨place, _, rfl⟩ := List.mem_map.mp other
            rfl
        · have known := (rest.live.consistent.known other).mp (List.mem_append_left _ runs)
          exact absurd (same ▸ known) fresh
        · cases Nat.le_zero.mp le
          rfl
      · exact rest.settled other ticket found
    · rw [terms?, Registry.get?_eq_none_iff.mpr fresh]
      rfl
    · rw [terms?, terms?, tickets other]
      split <;> rfl
  · rintro _ _ ⟨rfl, ⟨rfl, _⟩ | ⟨rfl, _⟩ | ⟨rfl, large⟩⟩
    · exact ⟨rfl, Or.inl ⟨_, rfl⟩⟩
    · exact ⟨rfl, Or.inl ⟨_, rfl⟩⟩
    · have positive := List.length_pos_iff.mpr p.replicated
      rw [rest.live.laneCount, Nat.max_eq_left positive] at large
      exact ⟨rfl, Or.inr ⟨rfl, large⟩⟩

/-- **Giving a request up.** -/
theorem abort_meets (rest : c.AtRest p caches) (id : RequestId) :
    Meets (onScheduler (Scheduler.abort id)) c
      (fun _ d => d.AtRest p caches ∧ d.delivered = c.delivered ∧
        (∀ other, other ≠ id → d.terms? other = c.terms? other) ∧
        ∃ terms, c.terms? id = some terms ∧
          (d.terms? id = some { terms with abortRequested := true } ∨ d.terms? id = none))
      (fun stop d => d = c ∧ ∃ cause, stop = .refused cause) := by
  rw [meets_onScheduler]
  refine (Scheduler.abort_meets rest.live.consistent id).mono ?_ ?_
  · rintro _ _ (⟨runs, ticket, found, rfl⟩ | ⟨waits, ids, frees, rfl⟩)
    · have live : Live p { c with scheduler :=
          { c.scheduler with tickets := c.scheduler.tickets.insert id ticket.abort } } caches :=
        rest.live.replaced ticket.abort found rfl rfl rfl rfl
      have tickets : ∀ other, (c.scheduler.tickets.insert id ticket.abort).get? other =
          if other = id then some ticket.abort else c.scheduler.tickets.get? other :=
        fun other => Registry.get?_insert ..
      refine ⟨⟨live, fun other held there => ?_⟩, rfl, fun other differ => ?_, ticket.terms,
        terms?_of_found found, Or.inl ?_⟩
      · replace there := (tickets other).symm.trans there
        split at there
        · rename_i same
          cases there
          have settled := rest.settled id ticket found
          exact ⟨settled.level, settled.unfinished, fun idle => absurd (same ▸ runs) idle,
            fun _ => settled.drained runs, settled.judged⟩
        · exact rest.settled other held there
      · show ((c.scheduler.tickets.insert id ticket.abort).get? other).map _ = _
        rw [tickets, if_neg differ]
        rfl
      · show ((c.scheduler.tickets.insert id ticket.abort).get? id).map _ = _
        rw [tickets, if_pos rfl]
        rfl
    · have live : Live p { c with scheduler := c.scheduler.dropped id ids } caches :=
        rest.live.dropped waits frees rfl rfl
      have tickets : ∀ other, (c.scheduler.tickets.erase id).get? other =
          if other = id then none else c.scheduler.tickets.get? other :=
        fun other => Registry.get?_erase ..
      obtain ⟨ticket, found⟩ := rest.live.consistent.found_of_queued (List.mem_append_right _ waits)
      refine ⟨⟨live, fun other held there => ?_⟩, rfl, fun other differ => ?_, ticket.terms,
        terms?_of_found found, Or.inr ?_⟩
      · replace there := (tickets other).symm.trans there
        split at there
        · cases there
        · exact rest.settled other held there
      · show ((c.scheduler.tickets.erase id).get? other).map _ = _
        rw [tickets, if_neg differ]
        rfl
      · show ((c.scheduler.tickets.erase id).get? id).map _ = _
        rw [tickets, if_pos rfl]
        rfl
  · rintro _ _ ⟨rfl, rfl, _⟩
    exact ⟨rfl, _, rfl⟩

end Cluster

namespace EngineSettings

/-- Settings that can be used: a request can run and has room for a position, every running request
gets a sequence id, and there are blocks of some size. -/
structure Usable (settings : EngineSettings) : Prop where
  slots : 0 < settings.maxRunning
  long : 0 < settings.maxLength
  roomy : settings.maxRunning ≤ settings.maxSequenceIds
  divided : 0 < settings.blockSize
  stocked : 0 < settings.blockCount

/-- Exactly the settings that can be used pass the check. -/
theorem validate_eq_ok_iff {settings : EngineSettings} :
    settings.validate = .ok () ↔ settings.Usable := by
  unfold validate trouble?
  constructor
  · intro passed
    split_ifs at passed with slotless lengthless few blockless
    exact ⟨by omega, by omega, by omega, by omega, by omega⟩
  · rintro ⟨slots, long, roomy, divided, stocked⟩
    rw [if_neg (by omega), if_neg (by omega), if_neg (by omega), if_neg (by omega)]

end EngineSettings

namespace Engine

/-- The answer to a call, and the engine afterwards. A refusal is an answer, too; after a fault
there is none. -/
def answer (engine : Engine) (call : Call) : Option (Answer × Engine) :=
  match call.run engine with
  | .ok answer after => some (answer, after)
  | .error (.refused cause) after => some (.refused cause, after)
  | .error (.fault _) _ => none

/-- The answers to calls, and the engine afterwards. -/
def serve (engine : Engine) : List Call → Option (List Answer × Engine)
  | [] => some ([], engine)
  | call :: rest =>
    match engine.answer call with
    | none => none
    | some (first, after) => (after.serve rest).map fun (later, last) => (first :: later, last)

/-- An engine over fresh caches, whether or not it writes down what happens. -/
def Starts (p : Premises) (engine : Engine) : Prop :=
  ∃ (caches : List PagedCache) (built : Engine), (∀ cache ∈ caches, cache.IsFresh) ∧
    caches.map PagedCache.model = p.models ∧
    ofReplicas (caches.map .paged) p.tokenizer p.settings = .ok built ∧
    (engine = built ∨ engine = built.traced)

/-- An engine that calls lead to from fresh caches. -/
def Reached (p : Premises) (engine : Engine) : Prop :=
  ∃ start calls answers, Starts p start ∧ start.serve calls = some (answers, engine)

/-- The engine is between two calls, and its settings are what they were. -/
structure Rests (p : Premises) (engine : Engine) : Prop where
  tokenizer : engine.tokenizer = p.tokenizer
  settings : engine.settings = p.settings
  slots : 0 < p.settings.maxRunning
  rest : ∃ caches, engine.cluster.AtRest p caches

variable {p : Premises} {engine after : Engine} {caches : List PagedCache} {id : RequestId}

@[simp]
theorem meets_onCluster {α : Type} {action : Action Cluster α} {done : α → Engine → Prop}
    {stopped : Stop → Engine → Prop} :
    Meets (onCluster action) engine done stopped ↔
      Meets action engine.cluster (fun value c => done value { engine with cluster := c })
        (fun stop c => stopped stop { engine with cluster := c }) :=
  meets_on

/-! ### The start -/

theorem ofReplicas_yields (replicas : List Replica) (tokenizer : Tokenizer)
    (settings : EngineSettings) :
    Yields (ofReplicas replicas tokenizer settings)
      (fun engine => (0 < settings.maxRunning ∧ settings.maxRunning ≤ settings.maxSequenceIds ∧
        settings.maxSequenceIds ≤ Memory.tableLimit) ∧
        engine = ⟨.ofReplicas replicas replicas.length (.ofCapacity settings.maxSequenceIds),
          tokenizer, settings, 0⟩)
      (fun _ => True) := by
  unfold ofReplicas
  rw [yields_bind]
  cases usable : settings.validate with
  | error cause => trivial
  | ok =>
      show Yields (if replicas.isEmpty then _ else _ : Checked Engine) _ _
      by_cases none : replicas.isEmpty
      · rw [if_pos none]
        trivial
      · rw [if_neg none]
        unfold SequenceIds.reserve Memory.holdTable
        by_cases room : settings.maxSequenceIds ≤ Memory.tableLimit
        · rw [if_pos room]
          have fine := EngineSettings.validate_eq_ok_iff.mp usable
          exact ⟨⟨fine.slots, fine.roomy, room⟩, rfl⟩
        · rw [if_neg room]
          trivial

theorem Starts.traced (starts : Starts p engine) : Starts p engine.traced := by
  obtain ⟨caches, built, fresh, models, ran, same⟩ := starts
  refine ⟨caches, built, fresh, models, ran, Or.inr ?_⟩
  rcases same with rfl | rfl <;> rfl

theorem Starts.rests (starts : Starts p engine) : engine.Rests p := by
  obtain ⟨caches, built, fresh, models, ran, same⟩ := starts
  obtain ⟨⟨slots, roomy, storable⟩, rfl⟩ := (ofReplicas_yields _ _ _).of_ok ran
  have positive := List.length_pos_iff.mpr p.replicated
  have length : caches.length = p.models.length := by
    rw [← models, List.length_map]
  have live : (Cluster.ofReplicas (caches.map .paged) (caches.map Replica.paged).length
      (.ofCapacity p.settings.maxSequenceIds)).Live p caches := by
    refine ⟨Cluster.owned_ofReplicas fresh _ _, models, ?_, roomy, storable, List.Pairwise.nil,
      fun _ _ found => ?_⟩
    · show max (caches.map _).length 1 = _
      rw [List.length_map, length]
      omega
    · cases found
  have rest : (Cluster.ofReplicas (caches.map .paged) (caches.map Replica.paged).length
      (.ofCapacity p.settings.maxSequenceIds)).AtRest p caches :=
    ⟨live, fun _ _ found => by cases found⟩
  rcases same with rfl | rfl
  · exact ⟨rfl, rfl, slots, caches, rest⟩
  · exact ⟨rfl, rfl, slots, caches, rest.congr rfl rfl⟩

/-! ### Each call -/

/-- What an answer leaves behind: an engine between two calls, and the effect on every request. -/
def Follows (p : Premises) (engine : Engine) (call : Call) (answer : Answer) (after : Engine) :
    Prop :=
  after.Rests p ∧ ∃ records, after.cluster.delivered = engine.cluster.delivered ++ records ∧
    ∀ id, call.Effect p id answer (engine.cluster.terms? id) (toldOf id records.flatten)
      (after.cluster.terms? id)

/-- Only the cluster has changed. -/
theorem Rests.on_cluster {c : Cluster} (rests : engine.Rests p) (rest : c.AtRest p caches) :
    Rests p { engine with cluster := c } :=
  ⟨rests.tokenizer, rests.settings, rests.slots, caches, rest⟩

/-- Nothing was delivered. -/
theorem Follows.silent {call : Call} {answer : Answer} (rests : after.Rests p)
    (delivered : after.cluster.delivered = engine.cluster.delivered)
    (effects : ∀ id, call.Effect p id answer (engine.cluster.terms? id) []
      (after.cluster.terms? id)) : Follows p engine call answer after := by
  refine ⟨rests, [], ?_, effects⟩
  rw [delivered, List.append_nil]

/-- At most a name was used up. -/
structure Same (engine after : Engine) : Prop where
  cluster : after.cluster = engine.cluster
  tokenizer : after.tokenizer = engine.tokenizer
  settings : after.settings = engine.settings
  named : after.named ≤ engine.named + 1

theorem Same.refl (engine : Engine) : Same engine engine := ⟨rfl, rfl, rfl, Nat.le_succ _⟩

theorem Same.rests (same : Same engine after) (rests : engine.Rests p) : after.Rests p where
  tokenizer := same.tokenizer.trans rests.tokenizer
  settings := same.settings.trans rests.settings
  slots := rests.slots
  rest := by
    rw [same.cluster]
    exact rests.rest

theorem Same.follows (same : Same engine after) (rests : engine.Rests p) {call : Call}
    {answer : Answer} (unnamed : ∀ id, answer ≠ .named id) :
    Follows p engine call answer after := by
  refine .silent (same.rests rests) (by rw [same.cluster]) fun id => ?_
  rw [same.cluster]
  exact .nothing (unnamed id)

theorem nameFor_meets (id? : Option RequestId) (engine : Engine) :
    Meets (nameFor id?) engine (fun _ after => Same engine after) (fun _ _ => False) := by
  unfold nameFor
  cases id? with
  | some id => exact ⟨rfl, rfl, rfl, Nat.le_succ _⟩
  | none => exact ⟨rfl, rfl, rfl, Nat.le_refl _⟩

theorem ofInputs_yields (id : RequestId) (submission : Submission) :
    Yields (Request.ofInputs id submission.inputs submission.settings)
      (fun request => request = ⟨id, submission.inputs, submission.settings⟩)
      (Overflows (positions submission.inputs)) := by
  unfold Request.ofInputs
  rw [yields_bind]
  exact (totalLength_yields _).mono (fun _ _ => rfl) (fun _ large => large)

/-- **A submission, part by part.** The request gets a name, its input is counted, and it is added
to those that wait, which is written down. -/
theorem submit_rule {submission : Submission} {done : RequestId → Engine → Prop}
    {stopped : Stop → Engine → Prop}
    (long : ∀ named stop, Same engine named → Overflows (positions submission.inputs) stop →
      stopped stop named)
    (adds : ∀ id named, Same engine named →
      Meets (Cluster.onScheduler
          (Scheduler.add ⟨id, submission.inputs, submission.settings⟩)) named.cluster
        (fun _ c => done id
          { named with cluster := { c with trace := Trace.record c.trace id .requested } })
        (fun stop c => stopped stop { named with cluster := c })) :
    Meets (submit submission) engine done stopped := by
  unfold submit
  rw [meets_bind]
  refine (nameFor_meets submission.id? engine).mono ?_ (fun _ _ => False.elim)
  intro id named same
  rw [meets_bind, meets_liftM]
  refine (ofInputs_yields id submission).mono ?_ (fun stop => long named stop same)
  rintro _ rfl
  rw [meets_bind, meets_onCluster, meets_bind]
  exact adds id named same

/-- **Submitting a request.** -/
theorem submit_meets (rests : engine.Rests p) (submission : Submission) :
    Meets (submit submission) engine
      (fun id after => Follows p engine (.submit submission) (.named id) after)
      (fun stop after => (Call.submit submission).Stops p engine.cluster stop ∧
        Same engine after) := by
  refine submit_rule ?_ fun id named same => ?_
  · rintro named _ same ⟨rfl, large⟩
    exact ⟨.input large, same⟩
  have rests : named.Rests p := same.rests rests
  obtain ⟨caches, rest⟩ := rests.rest
  refine (Cluster.add_meets rest _).mono ?_ ?_
  · rintro _ d ⟨settled, delivered, fresh, terms⟩
    refine .silent (rests.on_cluster (settled.congr rfl rfl)) ?_ fun other => ?_
    · rw [← same.cluster]
      exact delivered
    · rw [← same.cluster]
      show Call.Effect p other _ _ _ [] (d.terms? other)
      rw [terms other]
      by_cases here : other = id
      · subst here
        rw [if_pos rfl, fresh]
        exact .submitted
      · rw [if_neg here]
        exact .nothing fun equal => here (Answer.named.inj equal).symm
  · rintro _ _ ⟨rfl, ⟨_, rfl⟩ | ⟨rfl, large⟩⟩
    · exact ⟨.refused, same⟩
    · exact ⟨.lanes large, same⟩

/-- Submitting a request adds it to those that wait. -/
theorem submit_adds (engine : Engine) (submission : Submission) :
    Meets (submit submission) engine
      (fun id after => after.named ≤ engine.named + 1 ∧
        id ∉ engine.cluster.scheduler.tickets.keys ∧
        ∃ count, after.cluster.scheduler = engine.cluster.scheduler.added id
          (.ofRequest ⟨id, submission.inputs, submission.settings⟩ count))
      (fun _ after => Same engine after) := by
  refine submit_rule (fun _ _ same _ => same) fun id named same => ?_
  rw [Cluster.meets_onScheduler, ← same.cluster]
  refine (Scheduler.add_meets _ _).mono ?_ ?_
  · rintro _ _ ⟨fresh, _, rfl⟩
    exact ⟨same.named, fresh, _, rfl⟩
  · rintro _ _ ⟨rfl, _⟩
    exact same

/-- **Giving a request up.** -/
theorem abort_meets (rests : engine.Rests p) (id : RequestId) :
    Meets (abort id) engine (fun _ after => Follows p engine (.abort id) .done after)
      (fun stop after => (Call.abort id).Stops p engine.cluster stop ∧ Same engine after) := by
  obtain ⟨caches, rest⟩ := rests.rest
  unfold abort
  rw [meets_onCluster, meets_bind]
  refine (Cluster.abort_meets rest id).mono ?_ ?_
  · rintro _ d ⟨settled, delivered, others, terms, known, after⟩
    rw [Cluster.meets_record]
    refine .silent (rests.on_cluster (settled.congr rfl rfl)) delivered fun other => ?_
    show Call.Effect p other _ _ _ [] (d.terms? other)
    by_cases here : other = id
    · subst here
      rw [known]
      rcases after with marked | dropped
      · rw [marked]
        exact .marked
      · rw [dropped]
        exact .dropped
    · rw [others other here]
      exact .nothing Answer.noConfusion
  · rintro _ _ ⟨rfl, _, rfl⟩
    exact ⟨.refused, rfl, rfl, rfl, Nat.le_succ _⟩

/-- The cluster in the middle of the next step, when the batch was fed. -/
def fed (engine : Engine) : Cluster := engine.cluster.fed engine.settings.maxRunning

/-- **A step** does what a step of the cluster does. -/
theorem step_advances (rests : engine.Rests p) :
    Meets step engine
      (fun _ after => after.Rests p ∧ ((engine.hasPending = false ∧ after = engine) ∨
        (engine.hasPending = true ∧
          ¬ engine.cluster.Jammed p.settings.maxRunning engine.cluster.caches ∧
          ∃ batch records,
            Cluster.Stepped p engine.cluster batch engine.fed records after.cluster)))
      (fun stop after => engine.hasPending = true ∧ (Overflows engine.cluster.demand stop ∨
        (stop = .refused .outOfBlocks ∧ after = engine ∧
          engine.cluster.Jammed p.settings.maxRunning engine.cluster.caches ∧
          engine.cluster.Jams p.settings.maxRunning))) := by
  obtain ⟨caches, rest⟩ := rests.rest
  have taken := Cluster.step_meets rest
  have same : Cluster.step p.tokenizer p.settings =
      Cluster.step engine.tokenizer engine.settings := by
    rw [rests.tokenizer, rests.settings]
  have half : engine.fed = engine.cluster.fed p.settings.maxRunning := by
    rw [fed, rests.settings]
  rw [same] at taken
  unfold step
  rw [meets_bind, meets_get, meets_onCluster, rest.live.owned.caches_eq, half]
  refine taken.mono ?_ ?_
  · rintro report d (⟨idle, rfl⟩ | ⟨pending, free, batch, records, stepped⟩)
    · exact ⟨rests, Or.inl ⟨idle, rfl⟩⟩
    · obtain ⟨_, settled⟩ := stepped.rest
      exact ⟨rests.on_cluster settled, Or.inr ⟨pending, free, batch, records, stepped⟩⟩
  · rintro stop d ⟨pending, large | ⟨refused, rfl, jammed, jams⟩⟩
    · exact ⟨pending, Or.inl large⟩
    · exact ⟨pending, Or.inr ⟨refused, rfl, jammed, jams⟩⟩

/-- **A step.** It is turned down exactly in a jam, and then nothing has changed. -/
theorem step_meets (rests : engine.Rests p) :
    Meets step engine
      (fun report after => Follows p engine .step (.stepped report) after ∧
        (engine.hasPending = true →
          ¬ engine.cluster.Jammed p.settings.maxRunning engine.cluster.caches))
      (fun stop after => Overflows engine.cluster.load stop ∨
        (stop = .refused .outOfBlocks ∧ after = engine ∧ engine.hasPending = true ∧
          engine.cluster.Jammed p.settings.maxRunning engine.cluster.caches ∧
          engine.cluster.Jams p.settings.maxRunning)) := by
  refine (step_advances rests).mono ?_ ?_
  · rintro report after ⟨rests', ⟨idle, rfl⟩ | ⟨_, free, batch, records, stepped⟩⟩
    · refine ⟨(Same.refl after).follows rests fun _ => Answer.noConfusion, fun pending => ?_⟩
      rw [idle] at pending
      cases pending
    · refine ⟨⟨rests', [records], stepped.delivered, fun id => ?_⟩, fun _ => free⟩
      rw [List.flatten_singleton]
      cases known : engine.cluster.terms? id with
      | none =>
          obtain ⟨silent, same⟩ := stepped.tells.unknown id known
          rw [silent, same]
          exact .nothing Answer.noConfusion
      | some terms => exact .told (stepped.tells.known id terms known)
  · rintro stop after ⟨pending, large | ⟨refused, same, jammed, jams⟩⟩
    · exact Or.inl (large.mono (Cluster.demand_le_load (Scheduler.hasPending_iff.mp pending)))
    · exact Or.inr ⟨refused, same, pending, jammed, jams⟩

/-- **A call.** It stops for reasons that lie outside only, and a refusal is answered. -/
theorem call_meets (rests : engine.Rests p) (call : Call) :
    Meets call.run engine (fun answer after => Follows p engine call answer after)
      (fun stop after => stop.Outside ∧ ∀ cause, stop = .refused cause →
        Follows p engine call (.refused cause) after) := by
  have unnamed : ∀ (cause : Failure) (id : RequestId), Answer.refused cause ≠ .named id :=
    fun _ _ => Answer.noConfusion
  cases call with
  | submit submission =>
      unfold Call.run
      rw [meets_map]
      exact (submit_meets rests submission).mono (fun _ _ follows => follows)
        fun _ _ ⟨stops, same⟩ =>
          ⟨stops.outside, fun cause _ => same.follows rests (unnamed cause)⟩
  | abort id =>
      unfold Call.run
      rw [meets_map]
      exact (abort_meets rests id).mono (fun _ _ follows => follows)
        fun _ _ ⟨stops, same⟩ =>
          ⟨stops.outside, fun cause _ => same.follows rests (unnamed cause)⟩
  | step =>
      unfold Call.run
      rw [meets_map]
      refine (step_meets rests).mono (fun _ _ both => both.1) ?_
      rintro _ _ (⟨rfl, _⟩ | ⟨rfl, rfl, _⟩)
      · exact ⟨Or.inl (Or.inl rfl), fun _ refused => by cases refused⟩
      · exact ⟨Or.inl (Or.inr ⟨_, rfl⟩),
          fun cause _ => (Same.refl _).follows rests (unnamed cause)⟩

/-- What an answer leaves behind, where a refusal is an answer, too. -/
theorem of_answered {call : Call} {answer : Answer} {done : Answer → Engine → Prop}
    (meets : Meets call.run engine done
      (fun stop after => ∀ cause, stop = .refused cause → done (.refused cause) after))
    (answered : engine.answer call = some (answer, after)) : done answer after := by
  unfold Engine.answer at answered
  rcases meets.ends with ⟨value, e, run, follows⟩ | ⟨stop, e, run, refused⟩
  · rw [run] at answered
    cases answered
    exact follows
  · rw [run] at answered
    cases stop with
    | refused cause =>
        cases answered
        exact refused cause rfl
    | fault kind => cases answered

/-- A call that does not fault is answered. -/
theorem exists_answered {call : Call} {done : Answer → Engine → Prop}
    (meets : Meets call.run engine done
      (fun stop after => ∃ cause, stop = .refused cause ∧ done (.refused cause) after)) :
    ∃ answer after, engine.answer call = some (answer, after) ∧ done answer after := by
  unfold Engine.answer
  rcases meets.ends with ⟨value, e, run, follows⟩ | ⟨_, e, run, cause, rfl, follows⟩
  · rw [run]
    exact ⟨value, e, rfl, follows⟩
  · rw [run]
    exact ⟨.refused cause, e, rfl, follows⟩

/-- **One call** leaves the engine between two calls. -/
theorem Rests.answered (rests : engine.Rests p) {call : Call} {answer : Answer}
    (answered : engine.answer call = some (answer, after)) :
    Follows p engine call answer after :=
  of_answered ((call_meets rests call).mono (fun _ _ follows => follows) fun _ _ both => both.2)
    answered

/-! ### Runs -/

theorem serve_cons {call : Call} {rest : List Call} {answers : List Answer} :
    engine.serve (call :: rest) = some (answers, after) ↔ ∃ first middle later,
      engine.answer call = some (first, middle) ∧ middle.serve rest = some (later, after) ∧
        answers = first :: later := by
  rw [serve]
  cases engine.answer call with
  | none => simp
  | some both =>
      obtain ⟨first, middle⟩ := both
      dsimp only
      rw [Option.map_eq_some_iff]
      constructor
      · rintro ⟨⟨later, last⟩, served, same⟩
        cases same
        exact ⟨first, middle, later, rfl, served, rfl⟩
      · rintro ⟨_, _, later, ⟨⟩, served, rfl⟩
        exact ⟨(later, after), served, rfl⟩

theorem Rests.served (rests : engine.Rests p) {calls : List Call} {answers : List Answer}
    (served : engine.serve calls = some (answers, after)) : after.Rests p := by
  induction calls generalizing engine answers with
  | nil =>
      cases served
      exact rests
  | cons call rest ih =>
      obtain ⟨first, middle, later, answered, served, _⟩ := serve_cons.mp served
      exact ih (rests.answered answered).1 served

/-- An action on the cluster changes nothing else. -/
theorem onCluster_keeps {α : Type} (action : Action Cluster α) (engine : Engine) :
    Leads (fun engine after => after = { engine with cluster := after.cluster })
      (onCluster action) engine := by
  rw [Leads, meets_onCluster]
  exact (Meets.anyhow _ _).mono (fun _ _ _ => rfl) fun _ _ _ => rfl

/-- A call does not change the settings. -/
theorem call_settings (call : Call) (engine : Engine) :
    Leads (fun engine after => after.settings = engine.settings) call.run engine := by
  have cluster : ∀ {α : Type} (action : Action Cluster α),
      Leads (fun engine after => after.settings = engine.settings) (onCluster action) engine :=
    fun action => (onCluster_keeps action engine).mono fun _ same => by rw [same]
  cases call with
  | submit submission =>
      unfold Call.run
      rw [Leads, meets_map]
      exact submit_rule (fun _ _ same _ => same.settings) fun _ _ same =>
        (Meets.anyhow _ _).mono (fun _ _ _ => same.settings) fun _ _ _ => same.settings
  | abort id =>
      unfold Call.run abort
      rw [Leads, meets_map]
      exact cluster _
  | step =>
      unfold Call.run step
      rw [Leads, meets_map, meets_bind, meets_get]
      exact cluster _

theorem served_settings {calls : List Call} {answers : List Answer}
    (served : engine.serve calls = some (answers, after)) : after.settings = engine.settings := by
  induction calls generalizing engine answers with
  | nil =>
      cases served
      rfl
  | cons call rest ih =>
      obtain ⟨first, middle, later, answered, onwards, rfl⟩ := serve_cons.mp served
      have same : middle.settings = engine.settings :=
        of_answered (Meets.mono (call_settings call engine) (fun _ _ same => same)
          fun _ _ same _ _ => same) answered
      exact (ih onwards).trans same

theorem serve_append {calls more : List Call} {answers answers' : List Answer} {last : Engine}
    (served : engine.serve calls = some (answers, after))
    (goesOn : after.serve more = some (answers', last)) :
    engine.serve (calls ++ more) = some (answers ++ answers', last) := by
  induction calls generalizing engine answers with
  | nil =>
      cases served
      exact goesOn
  | cons call rest ih =>
      obtain ⟨first, middle, later, answered, onwards, rfl⟩ := serve_cons.mp served
      exact serve_cons.mpr ⟨first, middle, later ++ answers', answered, ih onwards, rfl⟩

/-- What further calls lead to is reached, too. -/
theorem Reached.served (reached : engine.Reached p) {calls : List Call} {answers : List Answer}
    (served : engine.serve calls = some (answers, after)) : after.Reached p := by
  obtain ⟨start, before, answers', starts, earlier⟩ := reached
  exact ⟨start, before ++ calls, answers' ++ answers, starts, serve_append earlier served⟩

/-- **Every engine that is reached is at rest.** -/
theorem Reached.rests (reached : engine.Reached p) : engine.Rests p := by
  obtain ⟨start, calls, answers, starts, served⟩ := reached
  exact starts.rests.served served

/-! ### A small engine -/

/-- Two caches of different shapes. -/
def tinyCaches : List PagedCache :=
  [.ofSize "first" 4 4 Cluster.countTokens, .ofSize "second" 6 3 Cluster.countTokens]

def tinyPremises : Premises where
  models := tinyCaches.map PagedCache.model
  tokenizer := .bytes none
  settings := ⟨8, 100, 8, 4, 4⟩
  replicated := List.cons_ne_nil _ _
  divided := by decide
  lenient := fun _ _ failed => by cases failed

/-- An engine over these caches. -/
def tinyEngine : Engine :=
  ⟨.ofReplicas (tinyCaches.map .paged) 2 (.ofCapacity 8), tinyPremises.tokenizer,
    tinyPremises.settings, 0⟩

theorem starts_tinyEngine : tinyEngine.Starts tinyPremises := by
  refine ⟨tinyCaches, tinyEngine, ?_, rfl, rfl, Or.inl rfl⟩
  simp [tinyCaches, PagedCache.IsFresh, PagedCache.ofSize, BlockPool.ofSize]

/-- A request that fits alone, but not together with a second one until both end. -/
def tinySubmission (id : RequestId) : Submission :=
  ⟨some id, [.tokens [1, 2, 3, 4]], GenerationSettings.usual.withMaxTokens 12⟩

/-- Calls that give a request up just when both requests need another block. -/
def crowdedCalls : List Call :=
  [.submit (tinySubmission "a"), .submit (tinySubmission "b"), .step, .step, .step, .step, .step,
    .abort "b"]

end Engine

end ContinuousBatching
