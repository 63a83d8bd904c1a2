/-
**Limits over a run.**

Whatever is asked of an engine and whatever its replicas refuse, a request is told no more tokens
than its limits allow, or one token if they allow none: a prompt may be as long as a sequence may
become, and the number of tokens may be limited to none, but the first token is generated before
anything is compared with a limit.

* `Cluster.Metered`: how many tokens a request was told, next to what its ticket counts as reported;
* `Cluster.process_watched`, `Cluster.step_watched`: a round of reports and a step keep count, even
  if they are refused;
* `Engine.call_watched`, `Engine.watched_served`: so do calls, as long as the name is not taken
  again;
* `Engine.told_within_limits`: **the limits of length**, and `Engine.not_told_within_limits`: one
  token may be too many.
-/

import ContinuousBatching.Proofs.Engine.Independence
import ContinuousBatching.Proofs.Engine.Precedence
import ContinuousBatching.Proofs.Request.Limits

namespace ContinuousBatching

/-- The number of tokens that the records of a request pass on. -/
def toldCount (id : RequestId) (records : List StreamRecord) : Nat :=
  ((toldOf id records).flatMap Prod.fst).length

theorem toldCount_append (id : RequestId) (first second : List StreamRecord) :
    toldCount id (first ++ second) = toldCount id first + toldCount id second := by
  rw [toldCount, toldOf_append, List.flatMap_append, List.length_append]
  rfl

theorem toldCount_cons (id other : RequestId) (settings : GenerationSettings) (delta : Delta)
    (batch : List StreamRecord) :
    toldCount other (.ofDelta id settings delta :: batch) =
      (if id = other then delta.tokens.length else 0) + toldCount other batch := by
  rw [toldCount, toldOf_cons]
  split
  · rw [List.flatMap_cons, List.length_append]
    rfl
  · exact (Nat.zero_add _).symm

namespace Cluster

variable {c d e : Cluster} {request : Request} {maxLength n : Nat} {tokenizer : Tokenizer}
  {earlier : List (List StreamRecord)}

/-- A request was told so many tokens, which keep its limits, and its ticket counts no fewer as
reported. -/
structure Metered (request : Request) (maxLength n : Nat) (c : Cluster) : Prop where
  kept : (request.limits maxLength).Kept n
  known : ∀ ticket, c.scheduler.tickets.get? request.id = some ticket →
    ticket.Metered request maxLength n

/-- The queues are tidy, and a request was told what was delivered for it since some moment. -/
structure Watched (request : Request) (maxLength : Nat) (earlier : List (List StreamRecord))
    (c : Cluster) : Prop where
  tidy : c.scheduler.Tidy
  metered : ∃ batches, c.delivered = earlier ++ batches ∧
    c.Metered request maxLength (toldCount request.id batches.flatten)

theorem Metered.anti {m : Nat} (metered : c.Metered request maxLength n) (less : m ≤ n) :
    c.Metered request maxLength m :=
  ⟨metered.kept.anti less, fun ticket found => (metered.known ticket found).anti less⟩

/-- While nothing is delivered and nobody is new, the count stays right. -/
theorem Metered.quiet (metered : c.Metered request maxLength n) (quiet : c.Quiet d) :
    d.Metered request maxLength n := by
  refine ⟨metered.kept, fun ticket found => ?_⟩
  obtain ⟨old, there, grows⟩ := quiet.scheduler.grown found
  exact (metered.known old there).grows grows

theorem Watched.quiet (watched : c.Watched request maxLength earlier) (quiet : c.Quiet d) :
    d.Watched request maxLength earlier := by
  obtain ⟨batches, delivered, metered⟩ := watched.metered
  exact ⟨quiet.tidy, batches, quiet.delivered.trans delivered, metered.quiet quiet⟩

/-- Nothing but the replicas and the trace has changed. -/
theorem Watched.congr (watched : c.Watched request maxLength earlier)
    (scheduler : d.scheduler = c.scheduler) (delivered : d.delivered = c.delivered) :
    d.Watched request maxLength earlier :=
  watched.quiet ((Steady.of_eq scheduler delivered).quiet watched.tidy)

/-- One report, of this request or of another one. -/
theorem Metered.report {id : RequestId} {ticket : Ticket} (metered : c.Metered request maxLength n)
    (found : c.scheduler.tickets.get? id = some ticket) (tokenizer : Tokenizer) :
    Yields (ticket.report tokenizer maxLength)
      (fun result => Metered request maxLength
        (n + if id = request.id then result.1.tokens.length else 0)
        { c with scheduler :=
          { c.scheduler with tickets := c.scheduler.tickets.insert id result.2 } })
      (fun _ => True) := by
  by_cases same : id = request.id
  · subst same
    refine (Ticket.report_metered metered.kept (metered.known ticket found) tokenizer).mono ?_
      (fun _ _ => trivial)
    rintro ⟨delta, next⟩ meters
    rw [if_pos rfl]
    refine ⟨meters.kept, fun other there => ?_⟩
    rw [Registry.get?_insert, if_pos rfl] at there
    cases there
    exact meters.metered
  · refine (Yields.anyhow _).mono (fun result _ => ?_) (fun _ _ => trivial)
    rw [if_neg same, Nat.add_zero]
    refine ⟨metered.kept, fun other there => metered.known other ?_⟩
    rwa [Registry.get?_insert, if_neg (Ne.symm same)] at there

/-- **The reports of a list of requests.** If they are refused midway, some tokens count as reported
that are never delivered. -/
theorem report_metered : ∀ (ids : List RequestId) (c : Cluster) (n : Nat),
    c.Metered request maxLength n →
    Meets (report tokenizer maxLength ids) c
      (fun batch d => d.delivered = c.delivered ∧
        d.Metered request maxLength (n + toldCount request.id batch))
      (fun _ d => d.delivered = c.delivered ∧ d.Metered request maxLength n)
  | [], _, _, metered => ⟨rfl, metered⟩
  | id :: rest, c, n, metered => by
      refine report_rule (fun _ => ⟨rfl, metered⟩) (fun _ _ _ _ => ⟨rfl, metered⟩)
        fun ticket delta next found reported => ?_
      have first := (metered.report found tokenizer).of_ok reported
      refine (report_metered rest _ _ first).mono ?_ fun _ d stopped =>
        ⟨stopped.1, stopped.2.anti (Nat.le_add_right _ _)⟩
      rintro later d ⟨delivered, metered⟩
      rw [Nat.add_assoc] at metered
      by_cases empty : delta.isEmpty = true
      · have none : delta.tokens = [] := List.isEmpty_iff.mp (Bool.and_eq_true_iff.mp empty).1
        rw [none, List.length_nil, ite_self, Nat.zero_add] at metered
        rw [if_pos empty]
        exact ⟨delivered, metered⟩
      · rw [if_neg empty, toldCount_cons]
        exact ⟨delivered, metered⟩

/-- **A round of reports.** -/
theorem process_watched (watched : c.Watched request maxLength earlier) (ids : List RequestId)
    (tokenizer : Tokenizer) :
    Leads (fun _ d => d.Watched request maxLength earlier) (process ids tokenizer maxLength) c := by
  obtain ⟨tidy, batches, delivered, metered⟩ := watched
  have spares : Leads (Spares none) (report tokenizer maxLength ids) c := report_spares ids c tidy
  rw [Leads, meets_process]
  refine ((report_metered ids c _ metered).and spares).mono ?_ fun _ d stopped =>
    ⟨stopped.2.tidy, batches, stopped.1.1.trans delivered, stopped.1.2⟩
  rintro batch d ⟨⟨same, metered⟩, spares⟩
  have handed : Watched request maxLength earlier
      { d with delivered := d.delivered ++ [batch] } := by
    refine ⟨spares.tidy, batches ++ [batch], ?_, ?_⟩
    · rw [← List.append_assoc, ← delivered, ← same]
    · rw [List.flatten_append, List.flatten_singleton, toldCount_append]
      exact ⟨metered.kept, metered.known⟩
  exact Meets.mono (reclaim_forward handed.tidy _) (fun _ e forward => handed.quiet forward.quiet)
    fun _ e forward => handed.quiet forward.quiet

/-- **A new request** of another name. -/
theorem add_watched (watched : c.Watched request maxLength earlier) (newcomer : Request) :
    Meets (onScheduler (Scheduler.add newcomer)) c
      (fun _ d => newcomer.id ≠ request.id → d.Watched request maxLength earlier)
      (fun _ d => d.Watched request maxLength earlier) := by
  obtain ⟨tidy, batches, delivered, metered⟩ := watched
  rw [meets_onScheduler]
  refine (Scheduler.add_line tidy newcomer).mono ?_ ?_
  · rintro _ t ⟨tidy', _, _, tickets⟩ other
    refine ⟨tidy', batches, delivered, metered.kept, fun ticket found => ?_⟩
    replace found : t.tickets.get? request.id = some ticket := found
    rw [tickets, Registry.get?_insert, if_neg (Ne.symm other)] at found
    exact metered.known ticket found
  · rintro _ t rfl
    exact ⟨tidy, batches, delivered, metered⟩

/-- **A step** keeps the limits, whatever it ends in. -/
theorem step_watched {settings : EngineSettings}
    (watched : c.Watched request settings.maxLength earlier) (tokenizer : Tokenizer) :
    Leads (fun _ d => d.Watched request settings.maxLength earlier)
      (Cluster.step tokenizer settings) c := by
  refine step_rule (fun _ => watched) fun _ => ?_
  refine (turn_spares watched.tidy _).mono ?_ (fun _ _ stopped => watched.quiet stopped.1)
  rintro first d ⟨⟨quiet, _⟩, _⟩
  replace watched := watched.quiet quiet
  refine (Yields.anyhow _).mono (fun ids _ => ?_) (fun _ _ => watched)
  refine Meets.mono (process_watched watched ids tokenizer) (fun finished e watched => ?_)
    (fun _ _ watched => watched)
  exact Meets.mono (recordAll_steady finished .finished e)
    (fun _ f steady => watched.quiet (steady.quiet watched.tidy))
    (fun _ f steady => watched.quiet (steady.quiet watched.tidy))

end Cluster

namespace Engine

variable {engine after : Engine} {request : Request} {maxLength : Nat}
  {earlier : List (List StreamRecord)}

/-- A request was told what was delivered for it since some moment, where sequences have at most so
many positions. -/
structure Watches (request : Request) (maxLength : Nat) (earlier : List (List StreamRecord))
    (engine : Engine) : Prop where
  length : engine.settings.maxLength = maxLength
  cluster : engine.cluster.Watched request maxLength earlier

/-- At most a name was used up. -/
theorem Watches.same (watches : engine.Watches request maxLength earlier)
    (same : Same engine after) : after.Watches request maxLength earlier :=
  ⟨same.settings ▸ watches.length, same.cluster ▸ watches.cluster⟩

theorem submit_watched (watches : engine.Watches request maxLength earlier)
    (submission : Submission) :
    Meets (submit submission) engine
      (fun id after => id ≠ request.id → after.Watches request maxLength earlier)
      (fun _ after => after.Watches request maxLength earlier) := by
  refine submit_rule (fun _ _ same _ => watches.same same) fun id named same => ?_
  replace watches := watches.same same
  exact (Cluster.add_watched watches.cluster _).mono
    (fun _ d watched other => ⟨watches.length, (watched other).congr rfl rfl⟩)
    (fun _ d watched => ⟨watches.length, watched⟩)

theorem abort_watched (watches : engine.Watches request maxLength earlier) (id : RequestId) :
    Leads (fun _ after => after.Watches request maxLength earlier) (abort id) engine := by
  unfold abort
  rw [Leads, meets_onCluster, meets_bind]
  refine Meets.mono (Cluster.onScheduler_forward
    (Scheduler.abort_forward watches.cluster.tidy id)) (fun _ d forward => ?_)
    (fun _ d forward => ⟨watches.length, watches.cluster.quiet forward.quiet⟩)
  rw [Cluster.meets_record]
  exact ⟨watches.length, (watches.cluster.quiet forward.quiet).congr rfl rfl⟩

theorem step_watched (watches : engine.Watches request maxLength earlier) :
    Leads (fun _ after => after.Watches request maxLength earlier) step engine := by
  obtain ⟨rfl, watched⟩ := watches
  unfold step
  rw [Leads, meets_bind, meets_get, meets_onCluster]
  exact Meets.mono (Cluster.step_watched watched engine.tokenizer)
    (fun _ _ watched => ⟨rfl, watched⟩) fun _ _ watched => ⟨rfl, watched⟩

/-- **A call** that does not take the name again. -/
theorem call_watched (watches : engine.Watches request maxLength earlier) (call : Call) :
    Meets call.run engine
      (fun answer after => answer ≠ .named request.id → after.Watches request maxLength earlier)
      (fun _ after => after.Watches request maxLength earlier) := by
  cases call with
  | submit submission =>
      unfold Call.run
      rw [meets_map]
      exact (submit_watched watches submission).mono
        (fun id _ kept other => kept fun same => other (congrArg Answer.named same))
        fun _ _ watches => watches
  | abort id =>
      unfold Call.run
      rw [meets_map]
      exact Meets.mono (abort_watched watches id) (fun _ _ watches _ => watches)
        fun _ _ watches => watches
  | step =>
      unfold Call.run
      rw [meets_map]
      exact Meets.mono (step_watched watches) (fun _ _ watches _ => watches)
        fun _ _ watches => watches

/-- **Any calls**, none of which takes the name again. -/
theorem watched_served (watches : engine.Watches request maxLength earlier) {calls : List Call}
    {answers : List Answer} (served : engine.serve calls = some (answers, after))
    (once : .named request.id ∉ answers) : after.Watches request maxLength earlier := by
  induction calls generalizing engine answers with
  | nil =>
      cases served
      exact watches
  | cons call rest ih =>
      obtain ⟨first, middle, later, answered, onwards, rfl⟩ := serve_cons.mp served
      obtain ⟨other, once⟩ := not_or.mp (List.mem_cons.not.mp once)
      refine ih (of_answered ((call_watched watches call).mono (fun _ _ watches => watches)
        fun _ _ watches _ _ _ => watches) answered (Ne.symm other)) onwards once

/-! ### The limits of length -/

/-- A request that was just submitted was told nothing. -/
theorem watches_of_submitted {before : Engine} (tidy : before.cluster.scheduler.Tidy)
    {submission : Submission} {id : RequestId}
    (submitted : before.answer (.submit submission) = some (.named id, engine)) :
    engine.Watches ⟨id, submission.inputs, submission.settings⟩ before.settings.maxLength
      engine.cluster.delivered := by
  have watches : Meets (submit submission) before
      (fun id after => after.Watches ⟨id, submission.inputs, submission.settings⟩
        before.settings.maxLength after.cluster.delivered) (fun _ _ => True) := by
    refine submit_rule (fun _ _ _ _ => trivial) fun id named same => ?_
    rw [← same.cluster] at tidy
    rw [← same.settings, Cluster.meets_onScheduler]
    refine (Scheduler.add_line tidy _).mono ?_ (fun _ _ _ => trivial)
    rintro _ t ⟨tidy, _, _, tickets⟩
    refine ⟨rfl, tidy, [], (List.append_nil _).symm, Limits.open_zero.kept,
      fun ticket found => ?_⟩
    replace found : t.tickets.get? id = some ticket := found
    rw [tickets, Registry.get?_insert, if_pos rfl] at found
    cases found
    exact ⟨rfl, Nat.le_refl 0, Nat.le_refl 0, fun _ => Limits.open_zero⟩
  have answers : Meets (Call.run (.submit submission)) before
      (fun answer after => ∀ id, answer = .named id →
        after.Watches ⟨id, submission.inputs, submission.settings⟩ before.settings.maxLength
          after.cluster.delivered) (fun _ _ => True) := by
    unfold Call.run
    rw [meets_map]
    refine watches.mono (fun named after watches id same => ?_) (fun _ _ _ => trivial)
    cases same
    exact watches
  exact of_answered (answers.mono (fun _ _ watches => watches)
    fun _ _ _ _ _ _ same => by cases same) submitted id rfl

theorem Watches.kept (watches : after.Watches request maxLength engine.cluster.delivered) :
    (request.limits maxLength).Kept (toldCount request.id (engine.deliveredSince after)) := by
  obtain ⟨batches, delivered, metered⟩ := watches.cluster.metered
  rw [deliveredSince, delivered, List.drop_left]
  exact metered.kept

/-- **The limits of length.** A request is submitted to an engine that any calls led to, and any
calls follow, none of which takes its name again. If the limits of the request allow a token at all,
then the tokens that it was told are within them, and otherwise it was told one token at most. The
same holds when the next step has ended, in whatever way. -/
theorem told_within_limits {replicas : List Replica} {tokenizer : Tokenizer}
    {settings : EngineSettings} {built start before : Engine} {earlier calls : List Call}
    {names answers : List Answer} {submission : Submission} {id : RequestId}
    (created : ofReplicas replicas tokenizer settings = .ok built)
    (same : start = built ∨ start = built.traced)
    (reached : start.serve earlier = some (names, before))
    (submitted : before.answer (.submit submission) = some (.named id, engine))
    (served : engine.serve calls = some (answers, after)) (once : .named id ∉ answers) :
    Limits.Kept ⟨submission.settings.maxTokens, positions submission.inputs, settings.maxLength⟩
        (toldCount id (engine.deliveredSince after)) ∧
      Leads (fun _ last => Limits.Kept
          ⟨submission.settings.maxTokens, positions submission.inputs, settings.maxLength⟩
          (toldCount id (engine.deliveredSince last)))
        step after := by
  obtain ⟨_, rfl⟩ := (ofReplicas_yields _ _ _).of_ok created
  have opened : start.settings = settings ∧ start.cluster.scheduler =
      .ofSize replicas.length (.ofCapacity settings.maxSequenceIds) := by
    rcases same with rfl | rfl <;> exact ⟨rfl, rfl⟩
  have empty : start.cluster.scheduler.line.Sublist ([] : List RequestId).dedup := by
    rw [opened.2]
    exact List.Sublist.refl []
  have tidy := (line_served (opened.2 ▸ Scheduler.tidy_ofSize _ _) empty reached).1
  have watches := watches_of_submitted tidy submitted
  rw [served_settings reached, opened.1] at watches
  replace watches := watched_served watches served once
  exact ⟨watches.kept, (step_watched watches).mono fun _ watches => watches.kept⟩

/-- The second of two requests is preempted and admitted again, and both are told as many tokens as
they may generate. -/
theorem told_within_limits_exhausted : ∃ before engine after answers,
    tinyEngine.serve [.submit (tinySubmission "a")] = some ([.named "a"], before) ∧
      before.answer (.submit (tinySubmission "b")) = some (.named "b", engine) ∧
      engine.serve (List.replicate 19 .step) = some (answers, after) ∧
      .stepped ⟨.decode, ["a"], ["b"], []⟩ ∈ answers ∧
      toldCount "b" (engine.deliveredSince after) = 12 ∧
      Limits.Kept ⟨12, 4, 100⟩ (toldCount "b" (engine.deliveredSince after)) := by
  have ran : (do
      let opened ← tinyEngine.serve [.submit (tinySubmission "a")]
      let answered ← opened.2.answer (.submit (tinySubmission "b"))
      let served ← answered.2.serve (List.replicate 19 .step)
      return decide (opened.1 = [.named "a"]) && decide (answered.1 = .named "b") &&
        decide (.named "b" ∉ served.1) &&
        decide (.stepped ⟨.decode, ["a"], ["b"], []⟩ ∈ served.1) &&
        decide (toldCount "b" (answered.2.deliveredSince served.2) = 12)) = some true := by
    decide +kernel
  simp only [Option.bind_eq_bind, Option.bind_eq_some_iff, Option.pure_def, Option.some.injEq,
    Bool.and_eq_true, decide_eq_true_eq] at ran
  obtain ⟨⟨names, before⟩, reached, ⟨named, engine⟩, submitted, ⟨answers, after⟩, served,
    ⟨⟨⟨rfl, rfl⟩, once⟩, preempted⟩, count⟩ := ran
  have created : ofReplicas (tinyCaches.map .paged) tinyPremises.tokenizer tinyPremises.settings =
    .ok tinyEngine := rfl
  exact ⟨before, engine, after, answers, reached, submitted, served, preempted, count,
    (told_within_limits created (Or.inl rfl) reached submitted served once).1⟩

/-- The same caches where sequences are short. -/
def briefPremises : Premises :=
  { tinyPremises with settings := { tinyPremises.settings with maxLength := 4 } }

def briefEngine : Engine := { tinyEngine with settings := briefPremises.settings }

theorem reached_briefEngine : briefEngine.Reached briefPremises := by
  refine ⟨briefEngine, [], [], ⟨tinyCaches, briefEngine, ?_, rfl, rfl, Or.inl rfl⟩, rfl⟩
  simp [tinyCaches, PagedCache.IsFresh, PagedCache.ofSize, BlockPool.ofSize]

/-- Whether the first step after the submission of a request tells it a token. -/
def tellsAtOnce (submission : Submission) : Option Bool := do
  let answered ← briefEngine.answer (.submit submission)
  let served ← answered.2.serve [.step]
  return decide (answered.1 = .named "a") && decide (.named "a" ∉ served.1) &&
    decide (toldCount "a" (answered.2.deliveredSince served.2) = 1)

theorem told_of_tellsAtOnce {submission : Submission}
    (tells : tellsAtOnce submission = some true) : ∃ engine after answers,
    briefEngine.answer (.submit submission) = some (.named "a", engine) ∧
      engine.serve [.step] = some (answers, after) ∧ .named "a" ∉ answers ∧
      toldCount "a" (engine.deliveredSince after) = 1 := by
  simp only [tellsAtOnce, Option.bind_eq_bind, Option.bind_eq_some_iff, Option.pure_def,
    Option.some.injEq, Bool.and_eq_true, decide_eq_true_eq] at tells
  obtain ⟨⟨named, engine⟩, submitted, ⟨answers, after⟩, served, ⟨rfl, once⟩, count⟩ := tells
  exact ⟨engine, after, answers, submitted, served, once, count⟩

/-- A request that may not generate any token is told one all the same, and so is a request whose
input is as long as a sequence may become. -/
theorem not_told_within_limits :
    (¬ ∀ (p : Premises) (before engine after : Engine) (submission : Submission) (id : RequestId)
        (calls : List Call) (answers : List Answer), before.Reached p →
      before.answer (.submit submission) = some (.named id, engine) →
      engine.serve calls = some (answers, after) → .named id ∉ answers →
      toldCount id (engine.deliveredSince after) ≤ submission.settings.maxTokens) ∧
    ¬ ∀ (p : Premises) (before engine after : Engine) (submission : Submission) (id : RequestId)
        (calls : List Call) (answers : List Answer), before.Reached p →
      before.answer (.submit submission) = some (.named id, engine) →
      engine.serve calls = some (answers, after) → .named id ∉ answers →
      positions submission.inputs + toldCount id (engine.deliveredSince after) ≤
        p.settings.maxLength := by
  constructor
  · intro within
    have tells : tellsAtOnce ((tinySubmission "a").withMaxTokens 0) = some true := by
      decide +kernel
    obtain ⟨engine, after, answers, submitted, served, once, count⟩ := told_of_tellsAtOnce tells
    have none := within _ _ _ _ _ _ _ _ reached_briefEngine submitted served once
    rw [count] at none
    exact absurd none (by decide)
  · intro within
    have tells : tellsAtOnce (tinySubmission "a") = some true := by decide +kernel
    obtain ⟨engine, after, answers, submitted, served, once, count⟩ := told_of_tellsAtOnce tells
    have short := within _ _ _ _ _ _ _ _ reached_briefEngine submitted served once
    rw [count] at short
    exact absurd short (by decide)

end Engine

end ContinuousBatching
