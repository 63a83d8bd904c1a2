/-
**Serving the requests of a run.**

The requests of a run are submitted one after the other, named in turn, to an engine that has
nothing else to do (`Simulation.Enrolled`). All of them are accepted unless their prompts are empty.
They have one length, so the steps that follow succeed exactly if the blocks suffice for one request
alone (`Arguments.Fit`), and then every request was told the tokens that it generates alone.

* `Engine.submit_unnamed`: a submission without a name;
* `submitFrom_meets`: submitting all requests;
* `serve_meets`: **submitting and serving** them.
-/

import ContinuousBatching.Proofs.Simulation.Requests

namespace ContinuousBatching

/-- Why a new request is turned down, and that nothing is counted when it is not. -/
theorem Cluster.add_asks {p : Premises} {c : Cluster} {caches : List PagedCache}
    (rest : c.AtRest p caches) (request : Request) :
    Meets (onScheduler (Scheduler.add request)) c
      (fun _ d => request.inputLength ≠ 0 ∧ d.scheduler.totals = c.scheduler.totals)
      (fun stop _ => (∃ cause, stop = .refused cause ∧ c.terms? request.id ≠ none) ∨
        (∃ cause, stop = .refused cause ∧ request.inputLength = 0) ∨
        (stop = .fault .outOfMemory ∧ Memory.limit ≤ p.models.length * Lane.bytes)) := by
  rw [meets_onScheduler]
  refine (Scheduler.add_meets request c.scheduler).mono ?_ ?_
  · rintro _ _ ⟨_, asked, rfl⟩
    exact ⟨asked, rfl⟩
  · rintro _ _ ⟨_, ⟨rfl, known⟩ | ⟨rfl, empty⟩ | ⟨rfl, large⟩⟩
    · obtain ⟨ticket, found⟩ := Registry.mem_keys_iff.mp known
      refine Or.inl ⟨_, rfl, ?_⟩
      rw [terms?_of_found found]
      exact Option.some_ne_none _
    · exact Or.inr (Or.inl ⟨_, rfl, empty⟩)
    · have positive := List.length_pos_iff.mpr p.replicated
      rw [rest.live.laneCount, Nat.max_eq_left positive] at large
      exact Or.inr (Or.inr ⟨rfl, large⟩)

/-- **A submission without a name.** It is accepted unless its input is empty, the next name is
taken, or something is too large. -/
theorem Engine.submit_unnamed {p : Premises} {engine : Engine} (rests : engine.Rests p)
    {submission : Submission} (unnamed : submission.id? = none) :
    Meets (submit submission) engine
      (fun _ after => after.Rests p ∧ after.named = engine.named + 1 ∧
        positions submission.inputs ≠ 0 ∧
        after.cluster.delivered = engine.cluster.delivered ∧
        after.cluster.scheduler.totals = engine.cluster.scheduler.totals ∧
        ∀ other, after.cluster.terms? other =
          if other = engine.nextName
          then some ⟨⟨engine.nextName, submission.inputs, submission.settings⟩, 0, none, false⟩
          else engine.cluster.terms? other)
      (fun stop _ => Overflows (positions submission.inputs) stop ∨
        (∃ cause, stop = .refused cause ∧ engine.cluster.terms? engine.nextName ≠ none) ∨
        (∃ cause, stop = .refused cause ∧ positions submission.inputs = 0) ∨
        (stop = .fault .outOfMemory ∧ Memory.limit ≤ p.models.length * Lane.bytes)) := by
  obtain ⟨caches, rest⟩ := rests.rest
  unfold submit
  rw [unnamed, meets_bind]
  show Meets _ { engine with named := engine.named + 1 } _ _
  rw [meets_bind, meets_liftM]
  refine (ofInputs_yields engine.nextName submission).mono ?_ (fun _ large => Or.inl large)
  rintro _ rfl
  rw [meets_bind, meets_onCluster, meets_bind]
  refine ((Cluster.add_meets rest _).and (Cluster.add_asks rest _)).mono ?_ ?_
  · rintro _ d ⟨⟨settled, delivered, _, terms⟩, asked, totals⟩
    rw [Cluster.meets_record]
    exact ⟨⟨rests.tokenizer, rests.settings, rests.slots, caches, settled.congr rfl rfl⟩, rfl,
      asked, delivered, totals, terms⟩
  · rintro stop d ⟨_, stopped⟩
    exact Or.inr stopped

namespace Simulation

variable {arguments : Arguments} {settings : EngineSettings} {divided : 0 < settings.blockSize}
  {engine after : Engine}

/-- Memory can hold a prompt, the blocks of a cache and the sequence ids, and there are no more
caches than it can hold lanes for. -/
structure Arguments.Affordable (arguments : Arguments) (settings : EngineSettings) : Prop where
  prompts : arguments.promptLength * tokenBytes < Memory.limit
  /-- Each replica has a cache of its own, which takes more than a lane of a request does. -/
  lanes : max arguments.replicas 1 * Lane.bytes < Memory.limit
  blocks : settings.blockCount ≤ Memory.tableLimit
  ids : settings.maxSequenceIds ≤ Memory.tableLimit

theorem Arguments.generated_pos : 1 ≤ arguments.generated settings := Nat.le_max_left ..

/-- All that is counted: all prompts, all tokens but the first ones, and one. -/
def Arguments.bound (arguments : Arguments) (settings : EngineSettings) : Nat :=
  arguments.requests * (arguments.promptLength + arguments.generated settings - 1) + 1

theorem Arguments.bound_eq : arguments.bound settings =
    arguments.requests * arguments.promptLength +
      arguments.requests * (arguments.generated settings - 1) + 1 := by
  rw [bound, Nat.add_sub_assoc arguments.generated_pos, Nat.mul_add]

/-- The length of a request is a count if the longest one is. -/
theorem Arguments.Affordable.short (affordable : arguments.Affordable settings)
    (long : settings.maxLength < Count.limit) :
    arguments.promptLength + arguments.generated settings < Count.limit := by
  have length : arguments.generated settings =
    max 1 (min arguments.maxTokens (settings.maxLength - arguments.promptLength)) := rfl
  have prompts := affordable.prompts
  unfold tokenBytes Memory.limit at prompts
  unfold Count.limit at long ⊢
  omega

/-- There is nothing to serve, or the blocks suffice for one request alone. -/
def Arguments.Fit (arguments : Arguments) (settings : EngineSettings) : Prop :=
  arguments.requests = 0 ∨
    (1 ≤ arguments.promptLength ∧
      (arguments.promptLength + arguments.generated settings - 1) ⌈/⌉
        settings.blockSize ≤ settings.blockCount)

instance (arguments : Arguments) (settings : EngineSettings) :
    Decidable (arguments.Fit settings) :=
  inferInstanceAs (Decidable (_ ∨ _))

theorem Arguments.fitsFor_iff (i : Nat) :
    (arguments.request i).FitsFor (arguments.premises settings divided)
        (arguments.generated settings) ↔
      (arguments.promptLength + arguments.generated settings - 1) ⌈/⌉
        settings.blockSize ≤ settings.blockCount := by
  have some : max arguments.replicas 1 ≠ 0 := by omega
  rw [Request.FitsFor, inputLength_request]
  refine ⟨fun fits => fits _ (List.mem_replicate.mpr ⟨some, rfl⟩), fun fits model member => ?_⟩
  rw [(List.mem_replicate.mp member).2]
  exact fits

/-! ### Submitting -/

/-- The first requests of a run were submitted, and nothing else has happened. -/
structure Enrolled (arguments : Arguments) (settings : EngineSettings)
    (divided : 0 < settings.blockSize) (count : Nat) (engine : Engine) : Prop where
  rests : engine.Rests (arguments.premises settings divided)
  named : engine.named = count
  known : ∀ i < count,
    engine.cluster.terms? (requestName i) = some ⟨arguments.request i, 0, none, false⟩
  others : ∀ id, (∀ i < count, id ≠ requestName i) → engine.cluster.terms? id = none
  delivered : engine.cluster.delivered = []
  totals : engine.cluster.scheduler.totals = .zero

namespace Enrolled

variable {count : Nat}

theorem nextName (enrolled : Enrolled arguments settings divided count engine) :
    engine.nextName = requestName count := by
  rw [Engine.nextName, enrolled.named, requestName]

/-- Whoever is known is one of these requests. -/
theorem of_known (enrolled : Enrolled arguments settings divided count engine) {id : RequestId}
    {terms : Terms} (known : engine.cluster.terms? id = some terms) :
    ∃ i < count, id = requestName i ∧ terms = ⟨arguments.request i, 0, none, false⟩ := by
  by_contra none
  have unknown : engine.cluster.terms? id = .none := enrolled.others id fun i less same => by
    refine none ⟨i, less, same, ?_⟩
    rw [same, enrolled.known i less] at known
    exact (Option.some_inj.mp known).symm
  rw [unknown] at known
  cases known

/-- What is the same for every request is added up as often as there are requests. -/
theorem sum_eq (enrolled : Enrolled arguments settings divided count engine)
    {f : Ticket → Nat} {n : Nat}
    (same : ∀ i ticket, ticket.request = arguments.request i → f ticket = n) :
    (engine.cluster.scheduler.tickets.values.map f).sum = count * n := by
  have keys : engine.cluster.scheduler.tickets.keys.Perm
      ((List.range count).map requestName) := by
    refine (List.perm_ext_iff_of_nodup engine.cluster.scheduler.tickets.nodup_keys
      (List.nodup_range.map requestName_injective)).mpr fun id => ?_
    rw [Registry.mem_keys_iff]
    constructor
    · rintro ⟨ticket, found⟩
      obtain ⟨i, less, rfl, _⟩ := enrolled.of_known (Cluster.terms?_of_found found)
      exact List.mem_map_of_mem (List.mem_range.mpr less)
    · intro member
      obtain ⟨i, there, rfl⟩ := List.mem_map.mp member
      obtain ⟨ticket, found, _⟩ :=
        Option.map_eq_some_iff.mp (enrolled.known i (List.mem_range.mp there))
      exact ⟨ticket, found⟩
  have constant : (engine.cluster.scheduler.tickets.values.map f).sum =
      (engine.cluster.scheduler.tickets.values.map fun _ => n).sum := by
    refine sum_map_congr fun ticket member => ?_
    obtain ⟨id, found⟩ := Registry.mem_values_iff.mp member
    obtain ⟨i, _, _, terms⟩ := enrolled.of_known (Cluster.terms?_of_found found)
    exact same i ticket (congrArg Terms.request terms)
  have size : engine.cluster.scheduler.tickets.values.length = count := by
    have length := keys.length_eq
    rw [List.length_map, List.length_range] at length
    rw [← length, Registry.values, Registry.keys, List.length_map, List.length_map]
  rw [constant, List.map_const', List.sum_replicate_nat, size]

theorem prefillDue_eq (enrolled : Enrolled arguments settings divided count engine) :
    engine.cluster.prefillDue = count * arguments.promptLength := by
  rw [Cluster.prefillDue, enrolled.totals, enrolled.sum_eq fun i ticket same => by
    rw [same, Arguments.inputLength_request]]
  exact Nat.zero_add _

theorem final_eq (enrolled : Enrolled arguments settings divided count engine) (n : Nat) :
    engine.cluster.final n = count * (n - 1) := by
  rw [Cluster.final, enrolled.totals, enrolled.sum_eq fun _ _ _ => rfl]
  exact Nat.zero_add _

/-- **All requests end alike.** -/
theorem uniform (enrolled : Enrolled arguments settings divided count engine)
    (short : arguments.promptLength + arguments.generated settings < Count.limit) :
    engine.cluster.Uniform (arguments.premises settings divided)
      (arguments.generated settings) where
  ends := fun id terms known => by
    obtain ⟨i, _, _, rfl⟩ := enrolled.of_known known
    exact arguments.concludes i short
  wanted := fun id terms known => by
    obtain ⟨i, _, _, rfl⟩ := enrolled.of_known known
    rfl

/-- **One request more.** -/
theorem submit_meets (enrolled : Enrolled arguments settings divided count engine)
    (affordable : arguments.Affordable settings) :
    Meets (Engine.submit ((Submission.ofTokens (prompt count arguments.promptLength)).withSettings
        arguments.generation)) engine
      (fun _ after => Enrolled arguments settings divided (count + 1) after ∧
        1 ≤ arguments.promptLength)
      (fun stop _ => arguments.promptLength = 0 ∧ ∃ cause, stop = .refused cause) := by
  have length : positions [.tokens (prompt count arguments.promptLength)] =
      arguments.promptLength := arguments.inputLength_request count
  have fresh : ∀ i < count, requestName count ≠ requestName i := fun i less same =>
    Nat.ne_of_gt less (requestName_injective same)
  refine (Engine.submit_unnamed enrolled.rests rfl).mono ?_ ?_
  · rintro _ after ⟨rests, named, asked, delivered, totals, terms⟩
    rw [enrolled.nextName] at terms
    refine ⟨⟨rests, ?_, fun i less => ?_, fun id apart => ?_, ?_, ?_⟩,
      Nat.one_le_iff_ne_zero.mpr (length ▸ asked)⟩
    · rw [named, enrolled.named]
    · rcases Nat.lt_succ_iff_lt_or_eq.mp less with before | rfl
      · rw [terms, if_neg (fresh i before).symm, enrolled.known i before]
      · rw [terms, if_pos rfl]
        rfl
    · rw [terms, if_neg (apart count (Nat.lt_succ_self count)),
        enrolled.others id fun i less => apart i (Nat.lt_succ_of_lt less)]
    · rw [delivered, enrolled.delivered]
    · rw [totals, enrolled.totals]
  · rintro stop after (⟨_, large⟩ | ⟨_, _, known⟩ | ⟨cause, refused, empty⟩ | ⟨_, large⟩)
    · have prompts := affordable.prompts
      have large : Count.limit ≤ positions [.tokens (prompt count arguments.promptLength)] := large
      rw [length] at large
      unfold tokenBytes Memory.limit at prompts
      unfold Count.limit at large
      omega
    · rw [enrolled.nextName] at known
      exact absurd (enrolled.others _ fresh) known
    · exact ⟨length.symm.trans empty, cause, refused⟩
    · have lanes := affordable.lanes
      rw [Arguments.premises, List.length_replicate] at large
      omega

end Enrolled

theorem submission_eq (affordable : arguments.Affordable settings) (i : Nat) :
    submission arguments i =
      .ok ((Submission.ofTokens (prompt i arguments.promptLength)).withSettings
        arguments.generation) := by
  rw [submission, Memory.holdList_eq_ok_iff.mpr affordable.prompts]
  rfl

/-- **Submitting the requests.** The induction is on the number of those that are left. -/
theorem submitFrom_meets (affordable : arguments.Affordable settings) :
    ∀ (count done : Nat) (engine : Engine), Enrolled arguments settings divided done engine →
      Meets (submitFrom arguments done count) engine
        (fun _ after => Enrolled arguments settings divided (done + count) after ∧
          (count ≠ 0 → 1 ≤ arguments.promptLength))
        (fun stop _ => count ≠ 0 ∧ arguments.promptLength = 0 ∧ ∃ cause, stop = .refused cause)
  | 0, _, _, enrolled => ⟨enrolled, fun some => absurd rfl some⟩
  | count + 1, done, engine, enrolled => by
      unfold submitFrom
      rw [submission_eq affordable, meets_bind, meets_liftM, yields_ok, meets_bind, meets_discard]
      refine (enrolled.submit_meets affordable).mono ?_ ?_
      · rintro _ after ⟨enrolled', nonempty⟩
        refine (submitFrom_meets affordable count (done + 1) after enrolled').mono ?_ ?_
        · rintro _ last ⟨all, _⟩
          rw [Nat.add_right_comm] at all
          exact ⟨all, fun _ => nonempty⟩
        · rintro _ _ ⟨_, empty, _⟩
          omega
      · rintro stop _ ⟨empty, refused⟩
        exact ⟨Nat.succ_ne_zero _, empty, refused⟩

/-! ### Serving -/

/-- Every request of a run was told what it generates alone, and nobody else was told anything. -/
structure Finished (arguments : Arguments) (settings : EngineSettings) (engine : Engine) :
    Prop where
  told : ∀ i < arguments.requests,
    (toldOf (requestName i) engine.cluster.delivered.flatten).flatMap Prod.fst =
      (solo letterAfter (prompt i arguments.promptLength)
        (arguments.generated settings)).map Sample.token
  untold : ∀ id, (∀ i < arguments.requests, id ≠ requestName i) →
    toldOf id engine.cluster.delivered.flatten = []
  occupied : engine.cluster.scheduler.totals.occupied = 0
  prefill : engine.cluster.scheduler.totals.prefillLength =
    arguments.requests * arguments.promptLength
  decode : engine.cluster.scheduler.totals.decodeLength =
    arguments.requests * (arguments.generated settings - 1)

namespace Enrolled

/-- What the requests are told in steps that leave nobody. -/
theorem told_of_serve {count : Nat}
    (enrolled : Enrolled arguments settings divided count engine)
    (short : arguments.promptLength + arguments.generated settings < Count.limit)
    {calls : List Call} {answers : List Answer}
    (served : engine.serve calls = some (answers, after)) (unnamed : ∀ id, .named id ∉ answers)
    (wanted : ∀ id, .abort id ∉ calls) (idle : after.hasPending = false) :
    (∀ i < count, (toldOf (requestName i) after.cluster.delivered.flatten).flatMap Prod.fst =
      (solo letterAfter (prompt i arguments.promptLength)
        (arguments.generated settings)).map Sample.token) ∧
    ∀ id, (∀ i < count, id ≠ requestName i) →
      toldOf id after.cluster.delivered.flatten = [] := by
  refine ⟨fun i less => ?_, fun id apart => ?_⟩
  · have soFar : Served (arguments.premises settings divided) (arguments.request i) False []
        (engine.cluster.terms? (requestName i)) := by
      rw [enrolled.known i less]
      refine .going rfl (fun given => by cases given) (fun m le => ?_) rfl rfl
      rw [Nat.le_zero.mp le]
      rfl
    obtain ⟨batches, delivered, now⟩ :=
      Engine.served_of_serve enrolled.rests served (unnamed _) soFar
    rw [Cluster.terms?_of_idle idle, List.nil_append] at now
    rw [delivered, enrolled.delivered, List.nil_append]
    cases now with
    | ended tokens concluded =>
        obtain ⟨reason, _, concludes⟩ := concluded (not_or.mpr ⟨not_false, wanted _⟩)
        obtain ⟨rfl, _⟩ := concludes.unique (arguments.concludes i short)
        rw [tokens, Arguments.stream_request]
  · obtain ⟨batches, delivered, silent⟩ :=
      Engine.untold_of_serve enrolled.rests served (unnamed id) (enrolled.others id apart)
    rw [delivered, enrolled.delivered, List.nil_append, silent]

/-- **Serving requests** that were submitted. -/
theorem runToCompletion_meets
    (all : Enrolled arguments settings divided arguments.requests engine)
    (short : arguments.promptLength + arguments.generated settings < Count.limit)
    (nonempty : arguments.requests ≠ 0 → 1 ≤ arguments.promptLength) :
    Meets Engine.runToCompletion engine
      (fun _ after => arguments.Fit settings ∧ Finished arguments settings after)
      (fun stop _ => Overflows (arguments.bound settings) stop ∨
        (¬ arguments.Fit settings ∧ ∃ cause, stop = .refused cause)) := by
  refine ((Engine.runToCompletion_courses all.rests (all.uniform short)).and
    (Engine.runToCompletion_serves engine)).mono ?_ ?_
  · rintro reports after ⟨⟨_, idle, occupied, prefill, decode, fits⟩, answers, served, unnamed⟩
    rw [all.prefillDue_eq] at prefill
    rw [all.final_eq] at decode
    obtain ⟨told, untold⟩ := all.told_of_serve short served unnamed
      (fun id member => by cases List.eq_of_mem_replicate member) idle
    refine ⟨?_, told, untold, occupied, prefill, decode⟩
    rcases Nat.eq_zero_or_pos arguments.requests with none | some
    · exact Or.inl none
    · have first := fits _ _ (all.known 0 some)
      exact Or.inr ⟨nonempty (Nat.ne_of_gt some), (Arguments.fitsFor_iff 0).mp first⟩
  · rintro stop _ ⟨large | ⟨id, terms, known, large, refused⟩, _⟩
    · rw [all.prefillDue_eq, all.final_eq, ← Arguments.bound_eq] at large
      exact Or.inl large
    · obtain ⟨i, less, _, rfl⟩ := all.of_known known
      refine Or.inr ⟨?_, _, refused⟩
      rintro (none | ⟨_, fits⟩)
      · omega
      · exact large ((Arguments.fitsFor_iff i).mpr fits)

end Enrolled

/-- **Submitting and serving.** It succeeds exactly if there is nothing to do or one request alone
fits, unless a count needs more than 64 bits; then every request was told its letters. -/
theorem serve_meets (affordable : arguments.Affordable settings)
    (long : settings.maxLength < Count.limit)
    (enrolled : Enrolled arguments settings divided 0 engine) :
    Meets (serve arguments) engine
      (fun _ after => arguments.Fit settings ∧ Finished arguments settings after)
      (fun stop _ => Overflows (arguments.bound settings) stop ∨
        (¬ arguments.Fit settings ∧ ∃ cause, stop = .refused cause)) := by
  unfold serve
  rw [meets_bind]
  refine (submitFrom_meets affordable arguments.requests 0 engine enrolled).mono ?_ ?_
  · rintro _ full ⟨all, nonempty⟩
    rw [Nat.zero_add] at all
    exact all.runToCompletion_meets (affordable.short long) nonempty
  · rintro stop _ ⟨some, empty, refused⟩
    refine Or.inr ⟨?_, refused⟩
    rintro (none | ⟨nonempty, _⟩)
    · exact some none
    · omega

end Simulation

end ContinuousBatching
