/-
**Names that nobody chose.**

A request that is submitted without a name gets one from the engine, which numbers the names that it
gives. No number is given twice, so what the engine names differs from all that it has named before
(`Engine.numbered_injective`). But a caller may choose any name, and the engine never looks whether
somebody has chosen the one that is next. While such a request is known, a submission without a name
is refused as a duplicate, and the number is used up.

* `Engine.submit_ends`: why a submission is refused, and that it takes a number only if it has no
  name;
* `Engine.Names`: the names that calls give and those that are known, `Engine.names_served`: any
  calls;
* `Engine.refused_only_if_chosen`: **a submission without a name** is accepted unless a caller chose
  the next one, and `Engine.not_accepts_unnamed`: one may have.
-/

import ContinuousBatching.Proofs.Engine.Precedence

namespace ContinuousBatching

namespace Call

/-- Whether a request is submitted without a name. -/
def unnamed : Call → Bool
  | .submit submission => submission.id?.isNone
  | .abort _ | .step => false

/-- The name that the caller chooses for a new request. -/
def chosen? : Call → Option RequestId
  | .submit submission => submission.id?
  | .abort _ | .step => none

/-- The name that the engine gives to a request that is submitted without one, and accepted. -/
def given? (call : Call) (answer : Answer) : Option RequestId :=
  if call.unnamed then answer.name? else none

end Call

namespace Engine

variable {engine middle after : Engine} {id : RequestId}

/-! ### Numbers -/

/-- The name with a number. -/
def numbered (number : Nat) : RequestId := s!"req-" ++ toString number

/-- **Different numbers make different names.** -/
theorem numbered_injective : Function.Injective numbered := by
  intro first second same
  have digits : toString first = toString second := (String.append_right_inj _).mp same
  rw [Nat.toString_eq_ofList_toDigits, Nat.toString_eq_ofList_toDigits] at digits
  calc first = Nat.ofDigitChars 10 (Nat.toDigits 10 first) 0 := Nat.ofDigitChars_ten_toDigits.symm
    _ = Nat.ofDigitChars 10 (Nat.toDigits 10 second) 0 := by rw [String.ofList_injective digits]
    _ = second := Nat.ofDigitChars_ten_toDigits

theorem nextName_eq (engine : Engine) : engine.nextName = numbered engine.named := rfl

/-- The name that a submission gets. -/
def nameOf (engine : Engine) (submission : Submission) : RequestId :=
  submission.id?.getD engine.nextName

/-- The engine after a submission got its name. -/
def naming (engine : Engine) (submission : Submission) : Engine :=
  { engine with named := engine.named + [Call.submit submission].countP Call.unnamed }

theorem nameFor_eq (engine : Engine) (submission : Submission) :
    nameFor submission.id? engine = .ok (engine.nameOf submission) (engine.naming submission) := by
  obtain ⟨id?, inputs, settings⟩ := submission
  cases id? <;> rfl

/-! ### Submissions -/

/-- **A submission.** It is refused if its name is taken or its input is empty, and nothing but the
number is used up then. -/
theorem submit_ends (engine : Engine) (submission : Submission) :
    Meets (submit submission) engine
      (fun id after => id = engine.nameOf submission ∧
        id ∉ engine.cluster.scheduler.tickets.keys ∧
        after.named = (engine.naming submission).named)
      (fun stop after => after = engine.naming submission ∧
        (Overflows (positions submission.inputs) stop ∨
          (stop = .refused (.duplicateRequest (engine.nameOf submission)) ∧
            engine.nameOf submission ∈ engine.cluster.scheduler.tickets.keys) ∨
          (stop = .refused (.untranslatable (.emptyPrompt (engine.nameOf submission))) ∧
            positions submission.inputs = 0) ∨
          (stop = .fault .outOfMemory ∧
            Memory.limit ≤ max engine.cluster.scheduler.laneCount 1 * Lane.bytes))) := by
  unfold submit
  rw [meets_bind, meets_iff_of_ok (nameFor_eq engine submission), meets_bind, meets_liftM]
  refine (ofInputs_yields _ submission).mono ?_ (fun _ large => ⟨rfl, Or.inl large⟩)
  rintro _ rfl
  rw [meets_bind, meets_onCluster, meets_bind, Cluster.meets_onScheduler]
  refine (Scheduler.add_meets _ engine.cluster.scheduler).mono ?_ ?_
  · intro _ _ added
    exact ⟨rfl, added.1, rfl⟩
  · rintro _ _ ⟨rfl, stopped⟩
    exact ⟨rfl, Or.inr stopped⟩

/-! ### What calls do to names -/

/-- The names that calls give, and those that are known afterwards. -/
structure Names (engine : Engine) (calls : List Call) (answers : List Answer) (after : Engine) :
    Prop where
  tidy : after.cluster.scheduler.Tidy
  lanes : after.cluster.scheduler.laneCount = engine.cluster.scheduler.laneCount
  named : after.named = engine.named + calls.countP Call.unnamed
  given : ∀ id, some id ∈ List.zipWith Call.given? calls answers →
    ∃ number < after.named, id = numbered number
  known : ∀ id ∈ after.cluster.scheduler.tickets.keys,
    id ∈ engine.cluster.scheduler.tickets.keys ∨ some id ∈ calls.map Call.chosen? ∨
      some id ∈ List.zipWith Call.given? calls answers

namespace Names

variable {call : Call} {answer : Answer} {calls : List Call} {answers : List Answer}

/-- A call before others. -/
theorem cons (first : engine.Names [call] [answer] middle)
    (later : middle.Names calls answers after) :
    engine.Names (call :: calls) (answer :: answers) after := by
  refine ⟨later.tidy, later.lanes.trans first.lanes, ?_, fun id given => ?_, fun id known => ?_⟩
  · rw [later.named, first.named, Nat.add_assoc, ← List.countP_append]
    rfl
  · rw [List.zipWith_cons_cons] at given
    rcases List.mem_cons.mp given with now | given
    · obtain ⟨number, less, rfl⟩ := first.given id (List.mem_singleton.mpr now)
      rw [later.named]
      exact ⟨number, Nat.lt_of_lt_of_le less (Nat.le_add_right _ _), rfl⟩
    · exact later.given id given
  · rw [List.map_cons, List.zipWith_cons_cons, List.mem_cons, List.mem_cons]
    rcases later.known id known with between | chosen | given
    · rcases first.known id between with before | chosen | given
      · exact Or.inl before
      · exact Or.inr (Or.inl (Or.inl (List.mem_singleton.mp chosen)))
      · exact Or.inr (Or.inr (Or.inl (List.mem_singleton.mp given)))
    · exact Or.inr (Or.inl (Or.inr chosen))
    · exact Or.inr (Or.inr (Or.inr given))

/-- No name that the engine gave is the next one. -/
theorem nextName_fresh (names : engine.Names calls answers after) :
    some after.nextName ∉ List.zipWith Call.given? calls answers := by
  intro given
  obtain ⟨number, less, same⟩ := names.given _ given
  rw [nextName_eq] at same
  exact Nat.ne_of_gt less (numbered_injective same)

/-- If somebody is known under the next name, a caller chose it. -/
theorem nextName_chosen (names : engine.Names calls answers after)
    (idle : engine.cluster.scheduler.tickets.keys = [])
    (taken : after.nextName ∈ after.cluster.scheduler.tickets.keys) :
    some after.nextName ∈ calls.map Call.chosen? := by
  rcases names.known _ taken with before | chosen | given
  · rw [idle] at before
    exact absurd before List.not_mem_nil
  · exact chosen
  · exact absurd given names.nextName_fresh

end Names

/-- Where the name comes from that an answer gives. -/
def Origin (engine : Engine) (call : Call) (answer : Answer) : Prop :=
  ∀ id, answer.name? = some id →
    if call.unnamed then id = engine.nextName else call.chosen? = some id

theorem Origin.of_none {call : Call} {answer : Answer} (nobody : answer.name? = none) :
    engine.Origin call answer := by
  intro id named
  rw [nobody] at named
  cases named

/-- One call takes a number exactly if it submits a request without a name. -/
theorem call_names (call : Call) (engine : Engine) :
    Meets call.run engine
      (fun answer after => after.named = engine.named + [call].countP Call.unnamed ∧
        engine.Origin call answer)
      (fun _ after => after.named = engine.named + [call].countP Call.unnamed) := by
  have cluster : ∀ {α : Type} (action : Action Cluster α),
      Leads (fun engine after => after.named = engine.named) (onCluster action) engine :=
    fun action => (onCluster_keeps action engine).mono fun _ same => by rw [same]
  cases call with
  | submit submission =>
      unfold Call.run
      rw [meets_map]
      refine (submit_ends engine submission).mono ?_ (fun _ _ stopped => by rw [stopped.1]; rfl)
      rintro _ after ⟨rfl, _, named⟩
      refine ⟨named, fun id same => ?_⟩
      obtain rfl := Option.some.inj same
      obtain ⟨id?, inputs, settings⟩ := submission
      cases id? <;> rfl
  | abort id =>
      unfold Call.run abort
      rw [meets_map]
      exact Meets.mono (cluster _) (fun _ _ same => ⟨same, .of_none rfl⟩)
        fun _ _ same => same
  | step =>
      unfold Call.run step
      rw [meets_map, meets_bind, meets_get]
      exact Meets.mono (cluster _) (fun _ _ same => ⟨same, .of_none rfl⟩)
        fun _ _ same => same

/-- **One call.** -/
theorem names_answered (tidy : engine.cluster.scheduler.Tidy) {call : Call} {answer : Answer}
    (answered : engine.answer call = some (answer, after)) :
    engine.Names [call] [answer] after := by
  have follows := answer_follows tidy answered
  have names : after.named = engine.named + [call].countP Call.unnamed ∧
      engine.Origin call answer :=
    of_answered ((call_names call engine).mono (fun _ _ names => names)
      fun _ _ named _ _ => ⟨named, .of_none rfl⟩) answered
  obtain ⟨named, origin⟩ := names
  refine ⟨follows.tidy, follows.lanes, named, fun id given => ?_, fun id known => ?_⟩
  · have here : some id = call.given? answer := List.mem_singleton.mp given
    unfold Call.given? at here
    by_cases unnamed : call.unnamed
    · rw [if_pos unnamed] at here
      have next := origin id here.symm
      rw [if_pos unnamed] at next
      have one : [call].countP Call.unnamed = 1 :=
        List.countP_eq_length.mpr (by simpa using unnamed)
      exact ⟨engine.named, by omega, next⟩
    · rw [if_neg unnamed] at here
      cases here
  · rcases follows.known id known with before | new
    · exact Or.inl before
    · have source := origin id new
      refine Or.inr ?_
      rw [List.map_singleton, List.mem_singleton]
      by_cases unnamed : call.unnamed
      · refine Or.inr (List.mem_singleton.mpr ?_)
        rw [Call.given?, if_pos unnamed, new]
      · rw [if_neg unnamed] at source
        exact Or.inl source.symm

/-- **Any calls.** -/
theorem names_served (tidy : engine.cluster.scheduler.Tidy) {calls : List Call}
    {answers : List Answer} (served : engine.serve calls = some (answers, after)) :
    engine.Names calls answers after := by
  induction calls generalizing engine answers with
  | nil =>
      cases served
      exact ⟨tidy, rfl, rfl, fun _ given => absurd given List.not_mem_nil,
        fun _ known => Or.inl known⟩
  | cons call rest ih =>
      obtain ⟨first, middle, later, answered, onwards, rfl⟩ := serve_cons.mp served
      have names := names_answered tidy answered
      exact names.cons (ih names.tidy onwards)

/-! ### Submissions without a name -/

/-- What becomes of a submission without a name, if its input is not empty and can be counted, and
memory holds its lanes. -/
theorem answer_unnamed (engine : Engine) {submission : Submission}
    (unnamed : submission.id? = none)
    (asks : 0 < positions submission.inputs) (countable : positions submission.inputs < Count.limit)
    (affordable : max engine.cluster.scheduler.laneCount 1 * Lane.bytes < Memory.limit) :
    ∃ answer after, engine.answer (.submit submission) = some (answer, after) ∧
      ((answer = .named engine.nextName ∧
          engine.nextName ∉ engine.cluster.scheduler.tickets.keys) ∨
        (answer = .refused (.duplicateRequest engine.nextName) ∧
          engine.nextName ∈ engine.cluster.scheduler.tickets.keys ∧
          after = { engine with named := engine.named + 1 })) := by
  have next : engine.nameOf submission = engine.nextName := by
    rw [nameOf, unnamed, Option.getD_none]
  have used : engine.naming submission = { engine with named := engine.named + 1 } := by
    have one : [Call.submit submission].countP Call.unnamed = 1 := by simp [Call.unnamed, unnamed]
    rw [naming, one]
  have ends := submit_ends engine submission
  rw [next, used] at ends
  refine exists_answered ?_
  unfold Call.run
  rw [meets_map]
  refine ends.mono ?_ ?_
  · rintro _ _ ⟨rfl, fresh, _⟩
    exact Or.inl ⟨rfl, fresh⟩
  · rintro _ _ ⟨rfl, ⟨_, large⟩ | ⟨rfl, taken⟩ | ⟨_, empty⟩ | ⟨_, large⟩⟩
    · exact absurd countable (Nat.not_lt_of_le large)
    · exact ⟨_, rfl, Or.inr ⟨rfl, taken, rfl⟩⟩
    · exact absurd empty (Nat.ne_of_gt asks)
    · exact absurd affordable (Nat.not_lt_of_le large)

/-- **A submission without a name.** After any calls of a new engine as many numbers are used up as
requests were submitted without a name, and the next name differs from all that the engine gave. If
nobody is known under it, a request without a name is accepted and gets it. Otherwise some caller
chose this name, and the request is refused, which uses up the number. -/
theorem refused_only_if_chosen {replicas : List Replica} {tokenizer : Tokenizer}
    {settings : EngineSettings} {built start : Engine} {calls : List Call} {answers : List Answer}
    {submission : Submission} (created : ofReplicas replicas tokenizer settings = .ok built)
    (same : start = built ∨ start = built.traced)
    (served : start.serve calls = some (answers, engine)) (unnamed : submission.id? = none)
    (asks : 0 < positions submission.inputs) (countable : positions submission.inputs < Count.limit)
    (affordable : max replicas.length 1 * Lane.bytes < Memory.limit) :
    engine.named = calls.countP Call.unnamed ∧
      some engine.nextName ∉ List.zipWith Call.given? calls answers ∧
      ∃ answer after, engine.answer (.submit submission) = some (answer, after) ∧
        if engine.nextName ∈ engine.cluster.scheduler.tickets.keys then
          answer = .refused (.duplicateRequest engine.nextName) ∧
            after = { engine with named := engine.named + 1 } ∧
            some engine.nextName ∈ calls.map Call.chosen?
        else
          answer = .named engine.nextName ∧
            engine.nextName ∉ engine.cluster.scheduler.running ++
              engine.cluster.scheduler.waiting := by
  obtain ⟨_, rfl⟩ := (ofReplicas_yields _ _ _).of_ok created
  have opened : start.named = 0 ∧ start.cluster.scheduler =
      .ofSize replicas.length (.ofCapacity settings.maxSequenceIds) := by
    rcases same with rfl | rfl <;> exact ⟨rfl, rfl⟩
  obtain ⟨zero, fresh⟩ := opened
  have names := names_served (fresh ▸ Scheduler.tidy_ofSize _ _) served
  have lanes : engine.cluster.scheduler.laneCount = max replicas.length 1 := by
    rw [names.lanes, fresh]
    rfl
  have idle : start.cluster.scheduler.tickets.keys = [] := by
    rw [fresh]
    rfl
  refine ⟨by rw [names.named, zero, Nat.zero_add], names.nextName_fresh, ?_⟩
  obtain ⟨answer, after, answered, ⟨rfl, free⟩ | ⟨rfl, taken, used⟩⟩ :=
    answer_unnamed engine unnamed asks countable
      (by rwa [lanes, Nat.max_eq_left (Nat.le_max_right _ _)])
  · refine ⟨_, after, answered, ?_⟩
    rw [if_neg free]
    exact ⟨rfl, fun queued => free (names.tidy.known _ queued)⟩
  · refine ⟨_, after, answered, ?_⟩
    rw [if_pos taken]
    exact ⟨rfl, used, names.nextName_chosen idle taken⟩

/-- A request that leaves its name to the engine. -/
def nameless : Submission := (Submission.ofTokens [1, 2, 3, 4]).withMaxTokens 12

/-- Calls that submit such a request while the name is taken, when the next one is free, and after
the first name was given up. -/
def namingCalls : List Call :=
  [.submit (tinySubmission "req-0"), .submit nameless, .submit nameless, .step, .abort "req-0",
    .submit nameless]

/-- The first such request is refused, and the one after these calls gets another name. -/
theorem refused_only_if_chosen_twice :
    (∃ answers engine after, tinyEngine.serve (namingCalls.take 1) = some (answers, engine) ∧
      engine.answer (.submit nameless) = some (.refused (.duplicateRequest "req-0"), after) ∧
      after.nextName = "req-1" ∧ some "req-0" ∈ (namingCalls.take 1).map Call.chosen?) ∧
    ∃ answers engine after, tinyEngine.serve namingCalls = some (answers, engine) ∧
      List.zipWith Call.given? namingCalls answers =
        [none, none, some "req-1", none, none, some "req-2"] ∧
      engine.answer (.submit nameless) = some (.named "req-3", after) := by
  have created : ofReplicas (tinyCaches.map .paged) tinyPremises.tokenizer tinyPremises.settings =
    .ok tinyEngine := rfl
  have asks : 0 < positions nameless.inputs := by decide
  have countable : positions nameless.inputs < Count.limit := by decide
  have affordable : max (tinyCaches.map Replica.paged).length 1 * Lane.bytes < Memory.limit := by
    decide
  constructor
  · have ran : (tinyEngine.serve (namingCalls.take 1)).any (fun ended =>
        decide (ended.2.nextName = "req-0") &&
        decide (ended.2.nextName ∈ ended.2.cluster.scheduler.tickets.keys) &&
        decide (Engine.nextName { ended.2 with named := ended.2.named + 1 } = "req-1")) = true := by
      decide +kernel
    obtain ⟨⟨answers, engine⟩, served, ran⟩ := Option.any_eq_true .. |>.mp ran
    simp only [Bool.and_eq_true, decide_eq_true_eq] at ran
    obtain ⟨⟨next, taken⟩, later⟩ := ran
    obtain ⟨_, _, answer, after, answered, ends⟩ :=
      refused_only_if_chosen created (Or.inl rfl) served rfl asks countable affordable
    rw [if_pos taken, next] at ends
    obtain ⟨rfl, rfl, chosen⟩ := ends
    exact ⟨answers, engine, _, served, answered, later, chosen⟩
  · have ran : (tinyEngine.serve namingCalls).any (fun ended =>
        decide (List.zipWith Call.given? namingCalls ended.1 =
          [none, none, some "req-1", none, none, some "req-2"]) &&
        decide (ended.2.nextName = "req-3") &&
        decide (ended.2.nextName ∉ ended.2.cluster.scheduler.tickets.keys)) = true := by
      decide +kernel
    obtain ⟨⟨answers, engine⟩, served, ran⟩ := Option.any_eq_true .. |>.mp ran
    simp only [Bool.and_eq_true, decide_eq_true_eq] at ran
    obtain ⟨⟨given, next⟩, free⟩ := ran
    obtain ⟨_, _, answer, after, answered, ends⟩ :=
      refused_only_if_chosen created (Or.inl rfl) served rfl asks countable affordable
    rw [if_neg free, next] at ends
    obtain ⟨rfl, _⟩ := ends
    exact ⟨answers, engine, after, served, given, answered⟩

/-- A request without a name is refused where a caller chose the next one. -/
theorem not_accepts_unnamed :
    ¬ ∀ (p : Premises) (start engine : Engine) (calls : List Call) (answers : List Answer)
        (submission : Submission), start.Starts p → start.serve calls = some (answers, engine) →
      submission.id? = none → 0 < positions submission.inputs →
      calls.countP Call.unnamed < Count.limit →
      ∃ id after, engine.answer (.submit submission) = some (.named id, after) := by
  intro accepts
  have ran : (do
      let opened ← tinyEngine.serve (namingCalls.take 1)
      let answered ← opened.2.answer (.submit nameless)
      return decide (answered.1 = .refused (.duplicateRequest "req-0"))) = some true := by
    decide +kernel
  simp only [Option.bind_eq_bind, Option.bind_eq_some_iff, Option.pure_def, Option.some.injEq,
    decide_eq_true_eq] at ran
  obtain ⟨⟨answers, engine⟩, served, ⟨_, after⟩, answered, rfl⟩ := ran
  obtain ⟨id, last, named⟩ := accepts _ _ _ _ _ nameless starts_tinyEngine served rfl (by decide)
    (by decide)
  cases answered.symm.trans named

end Engine

end ContinuousBatching
