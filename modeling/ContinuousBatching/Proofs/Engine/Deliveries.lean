/-
**One step, one batch.**

A step that does anything delivers one batch of records: one for each request that it fed, in that
order, and then one for each running request that was given up. Whoever was fed has one token more
on every replica, which its record passes on, unless the text cannot be decoded; whoever was given
up is told that it ends. Those with a reason to finish are gone afterwards, and everybody else is
still there.

* `Cluster.Grown.commits`: who has tokens more in the middle of a step;
* `Cluster.turn_sorts`: nobody who was given up is fed, and all of them keep running in their order;
* `Told.passes`: what a record passes on;
* `Cluster.Delivers`, `Cluster.step_delivers`: the batch of a step;
* `Engine.delivers_once`: the batch of a step of any engine that is reached.
-/

import ContinuousBatching.Proofs.Engine.Calls
import ContinuousBatching.Proofs.Scheduler.Rounds

namespace ContinuousBatching

/-! ### What a record passes on -/

/-- **What a request is told**, if it is told anything. -/
theorem Told.passes {p : Premises} {before : Terms} {tokens : List TokenId}
    {finish : Option FinishReason} {after? : Option Terms} {token : TokenId}
    (told : Told p before [(tokens, finish)] after?) (wanted : before.abortRequested = false)
    (stream : p.stream before.request (before.reported + 1) =
      p.stream before.request before.reported ++ [token]) :
    (before.request.settings.Unreadable p.tokenizer
      (p.stream before.request (before.reported + 1)) token →
        tokens = [] ∧ finish = some .abort) ∧
    (¬ before.request.settings.Unreadable p.tokenizer
      (p.stream before.request (before.reported + 1)) token →
        tokens = [token] ∧ finish ≠ some .abort) := by
  have verdict : p.judgement before.request (before.reported + 1) =
      Reporting.verdict ⟨before.request.settings, p.tokenizer, before.request.inputLength,
        p.settings.maxLength, false⟩ (p.stream before.request (before.reported + 1)) token := by
    rw [Premises.judgement, stream, Request.judge_concat]
  have readable := Reporting.verdict_readable ⟨before.request.settings, p.tokenizer,
    before.request.inputLength, p.settings.maxLength, false⟩
    (p.stream before.request (before.reported + 1)) token
  have reasons := Reporting.verdict_wanted ⟨before.request.settings, p.tokenizer,
    before.request.inputLength, p.settings.maxLength, false⟩
    (p.stream before.request (before.reported + 1)) token
  rw [← verdict] at readable reasons
  have same : ∀ other, p.stream before.request (before.reported + 1) =
      p.stream before.request before.reported ++ [other] → other = token := by
    intro other stream'
    simpa using stream'.symm.trans stream
  cases told with
  | next _ stream' judged =>
      rw [same _ stream']
      exact ⟨fun unreadable => absurd unreadable (readable.of_ok judged), fun _ => ⟨rfl, by simp⟩⟩
  | last _ stream' judged =>
      rw [same _ stream']
      exact ⟨fun unreadable => absurd unreadable (readable.of_ok judged),
        fun _ => ⟨rfl, reasons.of_ok judged⟩⟩
  | broken _ judged =>
      exact ⟨fun _ => ⟨rfl, rfl⟩, fun fits => absurd (readable.of_error judged _ rfl) fits⟩
  | givenUp given =>
      rw [wanted] at given
      cases given

/-- Whoever was given up is told that it ends. -/
theorem Told.of_givenUp {p : Premises} {before : Terms} {tokens : List TokenId}
    {finish : Option FinishReason} {after? : Option Terms}
    (told : Told p before [(tokens, finish)] after?) (given : before.abortRequested = true) :
    tokens = [] ∧ finish = some .abort := by
  cases told with
  | next wanted => rw [given] at wanted; cases wanted
  | last wanted => rw [given] at wanted; cases wanted
  | broken => exact ⟨rfl, rfl⟩
  | givenUp => exact ⟨rfl, rfl⟩

namespace Cluster

variable {p : Premises} {c d e : Cluster} {caches caches' : List PagedCache} {id : RequestId}
  {ticket : Ticket} {ids batch : List RequestId}

/-! ### Who commits tokens -/

/-- The tokens that a request has committed on a replica. -/
def committed? (c : Cluster) (id : RequestId) (place : Nat) : Option (List Sample) :=
  (c.scheduler.tickets.get? id).bind fun ticket => (ticket.lane? place).map Lane.committed

/-- Each of these requests committed one token on every replica, and nobody else committed any. -/
structure Commits (c : Cluster) (batch : List RequestId) (d : Cluster) : Prop where
  fed : ∀ id ∈ batch, ∀ place < c.replicas.length, ∃ samples sample,
    c.committed? id place = some samples ∧ d.committed? id place = some (samples ++ [sample])
  others : ∀ id ∉ batch, ∀ place, d.committed? id place = c.committed? id place

/-- The tokens of a request are those that the models generate for it alone. -/
theorem Live.committed?_eq (live : d.Live p caches)
    (found : d.scheduler.tickets.get? id = some ticket) {n : Nat}
    (level : ∀ lane ∈ ticket.lanes, lane.committed.length = n) (place : Nat) :
    d.committed? id place = (p.models[place]?).map fun model =>
      solo model.nextToken (tokenIds ticket.request.inputs) n := by
  have stands := live.stands id ticket found
  rw [committed?, found, Option.bind_some]
  cases there : ticket.lane? place with
  | none =>
      have bound := List.getElem?_eq_none_iff.mp there
      rw [stands.laned] at bound
      rw [List.getElem?_eq_none bound]
      rfl
  | some lane =>
      have bound := (List.getElem?_eq_some_iff.mp there).1
      rw [stands.laned] at bound
      have model_at : p.models[place]? = some p.models[place] := List.getElem?_eq_getElem bound
      have alone := (stands.alone place lane _ there model_at).committed
      rw [level lane (Ticket.lane_mem there)] at alone
      rw [model_at, Option.map_some, Option.map_some, alone]

/-- What a request has committed between two steps. -/
theorem AtRest.committed?_eq (rest : c.AtRest p caches)
    (found : c.scheduler.tickets.get? id = some ticket) (place : Nat) :
    c.committed? id place = (p.models[place]?).map fun model =>
      solo model.nextToken (tokenIds ticket.request.inputs) ticket.reported :=
  rest.live.committed?_eq found (rest.settled id ticket found).level place

/-- What it has committed in the middle of a step. -/
theorem Grown.committed?_eq (grown : c.Grown p batch d caches')
    (found : c.scheduler.tickets.get? id = some ticket) (place : Nat) :
    d.committed? id place = (p.models[place]?).map fun model =>
      solo model.nextToken (tokenIds ticket.request.inputs)
        (ticket.reported + if id ∈ batch then 1 else 0) := by
  have known := grown.silent.terms id
  rw [terms?_of_found found] at known
  obtain ⟨now, there, same⟩ := Option.map_eq_some_iff.mp known
  have request : now.request = ticket.request := congrArg Terms.request same
  have reported : now.reported = ticket.reported := congrArg Terms.reported same
  rw [← request, ← reported]
  exact grown.live.committed?_eq there (grown.level id now there) place

/-- **Whoever was fed has one token more**, on every replica. -/
theorem Grown.commits (rest : c.AtRest p caches) (grown : c.Grown p batch d caches') :
    c.Commits batch d := by
  refine ⟨fun id member place bound => ?_, fun id absent place => ?_⟩
  · have runs := grown.runs id member
    obtain ⟨now, there⟩ := grown.live.consistent.found_of_running runs
    obtain ⟨ticket, found, _⟩ := grown.silent.found there
    rw [rest.live.owned.replicas, List.length_map, rest.live.length_caches] at bound
    have model_at : p.models[place]? = some p.models[place] := List.getElem?_eq_getElem bound
    rw [rest.committed?_eq found, grown.committed?_eq found, if_pos member, model_at]
    exact ⟨_, _, rfl, rfl⟩
  · cases found : c.scheduler.tickets.get? id with
    | none =>
        have unknown := grown.silent.terms id
        rw [terms?, terms?, found] at unknown
        rw [committed?, committed?, found, Option.map_eq_none_iff.mp unknown]
    | some ticket =>
        rw [rest.committed?_eq found, grown.committed?_eq found, if_neg absent]
        rfl

/-! ### Who reports -/

/-- Those who are fed were not given up, and those who were given up keep running in their order. -/
structure Sorts (c : Cluster) (batch : List RequestId) (d : Cluster) : Prop where
  wanted : ∀ id ∈ batch, c.scheduler.givenUp id = false
  given : d.scheduler.running.filter c.scheduler.givenUp =
    c.scheduler.running.filter c.scheduler.givenUp

/-- Whoever is admitted was not given up. -/
theorem Admitted.wanted (rest : c.AtRest p caches) {admitted : List RequestId}
    (result : c.Admitted p caches admitted d caches') (member : id ∈ admitted) :
    c.scheduler.givenUp id = false := by
  have waits : id ∈ c.scheduler.waiting := by
    rw [result.waiting]
    exact List.mem_append_left _ member
  have known := (rest.live.consistent.known id).mp (List.mem_append_right _ waits)
  exact rest.givenUp_of_idle known fun runs =>
    rest.live.consistent.not_waiting_of_running runs waits

theorem Admitted.sorts (rest : c.AtRest p caches) {admitted : List RequestId}
    (result : c.Admitted p caches admitted d caches') : c.Sorts admitted d := by
  refine ⟨fun id member => result.wanted rest member, ?_⟩
  have nobody : admitted.filter c.scheduler.givenUp = [] := by
    refine List.filter_eq_nil_iff.mpr fun id member => ?_
    rw [result.wanted rest member]
    exact Bool.false_ne_true
  rw [result.running, List.filter_append, nobody, List.append_nil]

/-- Nobody who was given up makes room, or is spared. -/
theorem Roomy.sorts (rest : c.AtRest p caches) {preempted : List RequestId}
    (roomy : c.Roomy p caches preempted d caches') : c.Sorts d.scheduler.spared d := by
  refine ⟨fun id member => ?_, ?_⟩
  · have spared := (List.mem_filter.mp member).2
    rw [roomy.silent.givenUp] at spared
    simpa using spared
  · -- whoever does not run any more was not given up
    refine (roomy.running.filter _).eq_of_length_le (List.Nodup.subperm ?_ ?_).length_le
    · exact rest.live.consistent.nodup_running.filter _
    · intro id member
      obtain ⟨runs, given⟩ := List.mem_filter.mp member
      refine List.mem_filter.mpr ⟨?_, given⟩
      by_contra gone
      rw [roomy.left id runs gone] at given
      cases given

/-- Feeding moves nobody. -/
theorem Sorts.steady (sorts : c.Sorts batch d) (steady : d.Steady e) : c.Sorts batch e :=
  ⟨sorts.wanted, steady.scheduler.running ▸ sorts.given⟩

/-- **The first half of a step** feeds nobody who was given up, and ends nobody. -/
theorem turn_sorts (rest : c.AtRest p caches) :
    Meets (turn p.settings.maxRunning) c
      (fun report d => report.finished = [] ∧ c.Sorts report.scheduled d) (fun _ _ => True) := by
  unfold turn
  rw [meets_bind]
  refine (admitFitting_meets rest).mono ?_ (fun _ _ _ => trivial)
  intro admitted d admits
  obtain ⟨caches', result⟩ := admits
  refine feedBatch_rule (fun some => ?_) (fun _ _ => trivial) fun none busy => ?_
  · exact Meets.mono (prefillAll_steady admitted d)
      (fun _ f steady => ⟨rfl, (result.sorts rest).steady steady⟩) (fun _ _ _ => trivial)
  · obtain ⟨rfl, rfl⟩ := result.unchanged none
    refine (makeRoom_meets rest).mono ?_ (fun _ _ _ => trivial)
    intro preempted e room
    obtain ⟨_, roomy⟩ := room
    rw [roomy.decodable_eq, yields_ok]
    exact Meets.mono (decodeAll_steady _ e)
      (fun _ f steady => ⟨rfl, (roomy.sorts rest).steady steady⟩) (fun _ _ _ => trivial)

/-- Whoever reports was fed, or was given up before the step. -/
theorem Grown.reporting_eq (grown : c.Grown p batch d caches') (sorts : c.Sorts batch d) :
    d.reporting batch = batch ++ c.scheduler.running.filter c.scheduler.givenUp := by
  rw [reporting, grown.silent.givenUp, sorts.given]
  refine congrArg _ (List.filter_eq_self.mpr fun id member => ?_)
  have given := (List.mem_filter.mp member).2
  rw [Bool.not_eq_true', List.contains_eq_mem, decide_eq_false_iff_not]
  intro fed
  rw [sorts.wanted id fed] at given
  cases given

/-- Whoever reports has something to say, and it is told what its own stream says. -/
theorem Grown.answers (rest : c.AtRest p caches) (grown : c.Grown p batch d caches')
    (member : id ∈ d.reporting batch) {delta : Delta} {next : Ticket}
    (answered : d.answer p.tokenizer p.settings.maxLength id = .ok (delta, next)) :
    delta.isEmpty = false ∧ ∃ ticket, c.scheduler.tickets.get? id = some ticket ∧
      Told p ticket.terms [(delta.tokens, delta.finish)] next.terms.kept := by
  obtain ⟨now, there, expectant, _⟩ := grown.expectant rest id member
  obtain ⟨_, same, report⟩ := answer_eq_ok.mp answered
  cases there.symm.trans same
  obtain ⟨_, _, _, filled, told⟩ :=
    (Ticket.report_of_expectant (grown.live.stands id now there) expectant).of_ok report
  obtain ⟨ticket, found, terms⟩ := grown.silent.found there
  exact ⟨filled, ticket, found, terms ▸ told⟩

/-! ### What is delivered -/

/-- The record of a request that was fed passes its new token on, the first replica's, unless the
text cannot be decoded. -/
def Passes (tokenizer : Tokenizer) (c d : Cluster) (r : StreamRecord) : Prop :=
  ∃ ticket samples sample, c.scheduler.tickets.get? r.request = some ticket ∧
    c.committed? r.request 0 = some samples ∧
    d.committed? r.request 0 = some (samples ++ [sample]) ∧
    (ticket.request.settings.Unreadable tokenizer ((samples ++ [sample]).map Sample.token)
      sample.token → r.tokens = [] ∧ r.finish = some .abort) ∧
    (¬ ticket.request.settings.Unreadable tokenizer ((samples ++ [sample]).map Sample.token)
      sample.token → r.tokens = [sample.token] ∧ r.finish ≠ some .abort)

/-- **What a step delivers.** The step led from `c` to `e`, and `d` is the cluster in between, when
everybody was fed and nobody had reported. -/
structure Delivers (tokenizer : Tokenizer) (c d e : Cluster) (batch finished : List RequestId)
    (records : List StreamRecord) : Prop where
  /-- The records are delivered together, and no others are. -/
  delivered : e.delivered = c.delivered ++ [records]
  /-- They belong to those who were fed, and then to those who ran and were given up. -/
  requests : records.map StreamRecord.request =
    batch ++ c.scheduler.running.filter c.scheduler.givenUp
  once : (records.map StreamRecord.request).Nodup
  fed : c.Commits batch d
  kept : ∀ id ∉ finished, ∀ place, e.committed? id place = d.committed? id place
  passes : ∀ r ∈ records, r.request ∈ batch → c.Passes tokenizer d r
  given : ∀ r ∈ records, c.scheduler.givenUp r.request = true →
    r.tokens = [] ∧ r.finish = some .abort
  ended : finished = finishedIn records
  gone : ∀ id ∈ finished, d.Gone id e
  /-- Whoever did not finish still runs or waits. -/
  left : ∀ id, id ∈ e.scheduler.running ++ e.scheduler.waiting ↔
    id ∈ c.scheduler.running ++ c.scheduler.waiting ∧ id ∉ finished

/-- What is written down besides does not matter. -/
theorem Delivers.traced {tokenizer : Tokenizer} {finished : List RequestId}
    {records : List StreamRecord} (delivers : c.Delivers tokenizer d e batch finished records)
    (trace : Option Trace) :
    c.Delivers tokenizer d { e with trace := trace } batch finished records :=
  { delivers with
    gone := fun id ended =>
      ⟨(delivers.gone id ended).queued, (delivers.gone id ended).known,
        (delivers.gone id ended).removed⟩ }

section Grown

variable (rest : c.AtRest p caches) (grown : c.Grown p batch d caches') (sorts : c.Sorts batch d)
  {r : StreamRecord} (member : r ∈ d.batchOf p.tokenizer p.settings.maxLength (d.reporting batch))

include rest grown member

/-- Every record tells a request what its own stream says. -/
theorem Grown.told : ∃ ticket after?, c.scheduler.tickets.get? r.request = some ticket ∧
    Told p ticket.terms [(r.tokens, r.finish)] after? := by
  obtain ⟨listed, delta, next, answered, record⟩ := mem_batchOf member
  obtain ⟨_, ticket, found, told⟩ := grown.answers rest listed answered
  rw [record]
  exact ⟨ticket, _, found, told⟩

include sorts in
/-- The record of a request that was fed passes its token on. -/
theorem Grown.passes (fed : r.request ∈ batch) : c.Passes p.tokenizer d r := by
  obtain ⟨ticket, _, found, told⟩ := grown.told rest member
  have wanted := sorts.wanted r.request fed
  rw [Scheduler.givenUp_of_found found] at wanted
  have before := rest.committed?_eq found 0
  have now := grown.committed?_eq found 0
  rw [p.first_model, Option.map_some] at before
  rw [if_pos fed, p.first_model, Option.map_some, solo] at now
  exact ⟨ticket, _, _, found, before, now, told.passes wanted Premises.stream_succ⟩

/-- The record of a request that was given up says so. -/
theorem Grown.given (given : c.scheduler.givenUp r.request = true) :
    r.tokens = [] ∧ r.finish = some .abort := by
  obtain ⟨ticket, _, found, told⟩ := grown.told rest member
  rw [Scheduler.givenUp_of_found found] at given
  exact told.of_givenUp given

end Grown

section Concluded

variable {tokenizer : Tokenizer} {maxLength : Nat} {heard : Cluster}

/-- Whoever is queued after a round was queued before it and did not finish. -/
theorem Concluded.mem_queues (inOrder : d.InOrder) (runs : ∀ id ∈ ids, id ∈ d.scheduler.running)
    (concluded : Concluded tokenizer maxLength d ids heard e) (id : RequestId) :
    id ∈ e.scheduler.running ++ e.scheduler.waiting ↔
      id ∈ d.scheduler.running ++ d.scheduler.waiting ∧
        id ∉ finishedIn (d.batchOf tokenizer maxLength ids) := by
  obtain ⟨_, owned⟩ := inOrder
  have waits : id ∈ d.scheduler.waiting → id ∉ finishedIn (d.batchOf tokenizer maxLength ids) := by
    intro waits finished
    exact owned.consistent.not_waiting_of_running
      (runs id (mem_finishedIn_batchOf.mp finished).1) waits
  rw [concluded.running, concluded.waiting, List.mem_append, List.mem_append, List.mem_filter,
    decide_eq_true_iff, or_and_right]
  exact or_congr_right (iff_self_and.mpr waits)

/-- Reports, and the ends of others, leave what a request has committed. -/
theorem Concluded.committed?_eq (concluded : Concluded tokenizer maxLength d ids heard e)
    (goesOn : id ∉ finishedIn (d.batchOf tokenizer maxLength ids)) (place : Nat) :
    e.committed? id place = d.committed? id place := by
  have reported := concluded.heard.reported id
  rw [committed?, committed?, concluded.tickets, if_neg goesOn]
  generalize d.scheduler.tickets.get? id = before at reported ⊢
  generalize heard.scheduler.tickets.get? id = now at reported ⊢
  cases reported with
  | none => rfl
  | some reported =>
      rw [Option.bind_some, Option.bind_some, Ticket.lane?, Ticket.lane?, Ticket.lanes,
        Ticket.lanes, reported.primary, reported.others]

end Concluded

/-- **Reporting and ending** after the batch was fed. -/
theorem Grown.process_delivers (rest : c.AtRest p caches) (grown : c.Grown p batch d caches')
    (sorts : c.Sorts batch d) :
    Meets (process (d.reporting batch) p.tokenizer p.settings.maxLength) d
      (fun finished e => ∃ records, c.Delivers p.tokenizer d e batch finished records)
      (fun _ _ => True) := by
  have inOrder : d.InOrder := ⟨_, grown.live.owned⟩
  have runs : ∀ id ∈ d.reporting batch, id ∈ d.scheduler.running := fun id member =>
    (grown.reporters id member).1
  refine ((process_rounds inOrder runs).and
    (process_relays grown.live.consistent.tidy _)).mono ?_ (fun _ _ _ => trivial)
  rintro _ e ⟨⟨rfl, ⟨heard, concluded⟩, _⟩, relays⟩
  obtain ⟨records, handed, relays⟩ := relays
  have delivered : e.delivered = c.delivered ++
      [d.batchOf p.tokenizer p.settings.maxLength (d.reporting batch)] := by
    rw [← grown.silent.delivered]
    exact concluded.ended.delivered
  obtain rfl : records = d.batchOf p.tokenizer p.settings.maxLength (d.reporting batch) := by
    have same := handed.symm.trans concluded.ended.delivered
    simpa using same
  have speaks : ∀ id ∈ d.reporting batch,
      d.recordsFor p.tokenizer p.settings.maxLength id ≠ [] := by
    intro id member
    obtain ⟨delta, next, answered, _⟩ := concluded.heard.own id member
    have filled := (grown.answers rest member answered).1
    rw [recordsFor_of_answer answered, filled]
    exact List.cons_ne_nil _ _
  have requests := map_request_batchOf grown.nodup_reporting speaks
  refine ⟨_, delivered, requests.trans (grown.reporting_eq sorts), ?_, grown.commits rest,
    fun id goesOn place => concluded.committed?_eq goesOn place,
    fun r member fed => grown.passes rest sorts member fed,
    fun r member given => grown.given rest member given, rfl, ?_, ?_⟩
  · rw [requests]
    exact grown.nodup_reporting
  · intro id finished
    obtain ⟨r, member, ends⟩ := mem_finishedIn.mp finished
    obtain ⟨_, _, gone, _⟩ := relays id
    exact gone ⟨r, member, ends⟩
  · intro id
    rw [concluded.mem_queues inOrder runs, grown.live.consistent.known, rest.live.consistent.known,
      grown.silent.keys]

/-- **A step** that does anything delivers one batch. -/
theorem step_delivers (rest : c.AtRest p caches) :
    Meets (step p.tokenizer p.settings) c
      (fun report e => report.kind ≠ .idle → ∃ d records,
        turn p.settings.maxRunning c = .ok { report with finished := [] } d ∧
        c.Delivers p.tokenizer d e report.scheduled report.finished records)
      (fun _ _ => True) := by
  refine step_rule (fun _ busy => absurd rfl busy) fun _ => ?_
  refine (((turn_meets rest).and (turn_sorts rest)).with_run).mono ?_ (fun _ _ _ => trivial)
  rintro first d ⟨⟨⟨_, caches', grown⟩, unended, sorts⟩, run⟩
  rw [reporters_eq grown.live.consistent, yields_ok]
  refine (grown.process_delivers rest sorts).mono ?_ (fun _ _ _ => trivial)
  intro finished e delivers
  obtain ⟨records, delivers⟩ := delivers
  refine (recordAll_meets finished .finished e).mono ?_ (fun _ _ _ => trivial)
  rintro _ _ ⟨trace, rfl⟩ _
  refine ⟨d, records, ?_, delivers.traced trace⟩
  rw [run, ← unended]

end Cluster

namespace Engine

/-- **One step, one batch.** Take an engine that any calls lead to, and a step of it that succeeds
and does anything. It delivers one batch of records: one of each request that was fed, in that
order, and then one of each running request that was given up, and no others. Each request that was
fed has committed one token more on every replica, which its record passes on unless it cannot be
decoded, and nobody else has committed any; whoever was given up is told that it ends. Those whose
record has a reason to finish are those that the step reports, and they are gone from the queues and
from every replica; everybody else still runs or waits. -/
theorem delivers_once {p : Premises} {engine after : Engine} {report : StepReport}
    (reached : engine.Reached p) (run : step engine = .ok report after)
    (busy : report.kind ≠ .idle) :
    ∃ d records,
      Cluster.turn engine.settings.maxRunning engine.cluster =
        .ok { report with finished := [] } d ∧
      engine.cluster.Delivers engine.tokenizer d after.cluster report.scheduled report.finished
        records := by
  have rests := reached.rests
  obtain ⟨caches, rest⟩ := rests.rest
  have delivers := Cluster.step_delivers rest
  rw [← rests.tokenizer, ← rests.settings] at delivers
  have tells : Meets step engine
      (fun report after => report.kind ≠ .idle → ∃ d records,
        Cluster.turn engine.settings.maxRunning engine.cluster =
          .ok { report with finished := [] } d ∧
        engine.cluster.Delivers engine.tokenizer d after.cluster report.scheduled report.finished
          records)
      (fun _ _ => True) := by
    unfold step
    rw [meets_bind, meets_get, meets_onCluster]
    exact delivers
  exact (meets_iff_of_ok run).mp tells busy

/-- Premises with a tokenizer that cannot decode the token 5. -/
def narrowPremises : Premises :=
  { tinyPremises with
    tokenizer := Cluster.narrowTokenizer 5
    lenient := fun _ _ => Cluster.isFatal_narrowTokenizer }

/-- Calls after which one request has no room, another one goes on with a token that cannot be
decoded, and a third one was given up. -/
def unlikeCalls : List Call :=
  let submit (id : RequestId) (tokens : List TokenId) (stops : List String) : Call :=
    .submit ⟨some id, [.tokens tokens], { GenerationSettings.usual with stopTexts := stops }⟩
  [submit "a" [1, 2] [], submit "b" [1, 2, 3, 4] [], submit "c" [1, 2, 3, 4] ["x"],
    submit "d" [1, 2] [], .step, .abort "b"]

/-- One token is passed on, and two requests are told that they end. -/
theorem delivers_once_unlike : ∃ engine d after records, engine.Reached narrowPremises ∧
    step engine = .ok ⟨.decode, ["a", "c"], ["d"], ["c", "b"]⟩ after ∧
    records.map (fun r => (r.request, r.tokens, r.finish)) =
      [("a", [3], none), ("c", [], some .abort), ("b", [], some .abort)] ∧
    engine.cluster.Delivers engine.tokenizer d after.cluster ["a", "c"] ["c", "b"] records := by
  let start : Engine := { tinyEngine with tokenizer := narrowPremises.tokenizer }
  have ran : (do
      let served ← start.serve unlikeCalls
      let stepped ← completed step served.2
      return decide (stepped.1 = ⟨.decode, ["a", "c"], ["d"], ["c", "b"]⟩) &&
        decide (stepped.2.cluster.delivered.getLast?.map
          (fun records => records.map fun r => (r.request, r.tokens, r.finish)) =
          some [("a", [3], none), ("c", [], some .abort), ("b", [], some .abort)])) =
      some true := by
    decide +kernel
  simp only [Option.bind_eq_bind, Option.bind_eq_some_iff, Option.pure_def, Option.some.injEq,
    Bool.and_eq_true, decide_eq_true_eq] at ran
  obtain ⟨⟨answers, engine⟩, served, ⟨report, after⟩, stepped, rfl, last⟩ := ran
  have starts : start.Starts narrowPremises := by
    refine ⟨tinyCaches, start, ?_, rfl, rfl, Or.inl rfl⟩
    simp [tinyCaches, PagedCache.IsFresh, PagedCache.ofSize, BlockPool.ofSize]
  have reached : engine.Reached narrowPremises := ⟨start, unlikeCalls, answers, starts, served⟩
  have run := completed_eq_some.mp stepped
  obtain ⟨d, records, _, delivers⟩ := delivers_once reached run (by decide)
  rw [delivers.delivered, List.getLast?_concat, Option.map_some, Option.some_inj] at last
  exact ⟨engine, d, after, records, reached, run, last, delivers⟩

end Engine

end ContinuousBatching
