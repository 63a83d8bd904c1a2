/-
**Exactly once.**

As long as reports succeed, a request is told its tokens in order, each of them once: what was
delivered for it so far is the first part of its committed tokens, as many as were counted as
reported, however often it was preempted in between and however many tokens were committed before it
had a turn. A record with a reason to finish is its last one, and when it is delivered the request
is gone, from the queues and from every replica.

* `report_relays`, `reclaim_gone`, `process_relays`: what a round of reports tells each request, and
  who is gone afterwards;
* `Operation.continues`, `streamed_after`: what one request was told, after one operation and after
  a history;
* `streamed_exactly_once`: what a request was told at any time, and what a round of reports adds.
-/

import ContinuousBatching.Proofs.Scheduler.Precedence

namespace ContinuousBatching

namespace Cluster

variable {c d e : Cluster} {id : RequestId} {tokenizer : Tokenizer} {maxLength : Nat}

/-! ### A round of reports -/

/-- The records of one request. -/
def recordsOf (id : RequestId) (batch : List StreamRecord) : List StreamRecord :=
  batch.filter fun r => r.request = id

theorem recordsOf_append (id : RequestId) (first second : List StreamRecord) :
    recordsOf id (first ++ second) = recordsOf id first ++ recordsOf id second :=
  List.filter_append ..

theorem recordsOf_cons (id other : RequestId) (settings : GenerationSettings) (delta : Delta)
    (batch : List StreamRecord) :
    recordsOf other (.ofDelta id settings delta :: batch) =
      if id = other then .ofDelta id settings delta :: recordsOf other batch
      else recordsOf other batch := by
  unfold recordsOf
  rw [List.filter_cons]
  simp only [decide_eq_true_iff]
  rfl

/-- What a round of reports tells a request: nothing, or what its own report says. -/
inductive Relayed (tokenizer : Tokenizer) (id : RequestId) :
    Option Ticket → List StreamRecord → Option Ticket → Prop
  | idle {known? : Option Ticket} : Relayed tokenizer id known? [] known?
  | told {ticket next : Ticket} {delta : Delta} (reports : ticket.Reports tokenizer delta next)
      (content : delta.isEmpty = false) :
      Relayed tokenizer id (some ticket) [.ofDelta id ticket.request.settings delta] (some next)

theorem Relayed.length_le {known? next? : Option Ticket} {records : List StreamRecord}
    (relayed : Relayed tokenizer id known? records next?) : records.length ≤ 1 := by
  cases relayed with
  | idle => exact Nat.zero_le 1
  | told => exact Nat.le_refl 1

/-- Where a record comes from. -/
theorem Relayed.of_record {known? next? : Option Ticket} {records : List StreamRecord}
    {r : StreamRecord} (relayed : Relayed tokenizer id known? records next?)
    (member : r ∈ records) :
    ∃ ticket next delta, known? = some ticket ∧ next? = some next ∧
      ticket.Reports tokenizer delta next ∧ records = [r] ∧
      r = .ofDelta id ticket.request.settings delta := by
  cases relayed with
  | idle => exact absurd member List.not_mem_nil
  | told reports content =>
      cases List.mem_singleton.mp member
      exact ⟨_, _, _, rfl, rfl, reports, rfl, rfl⟩

/-- A request that was told something is not told more in the same round. -/
theorem Relayed.after_report {ticket next : Ticket} {delta : Delta} {later : List StreamRecord}
    {known? : Option Ticket} (relayed : Relayed tokenizer id (some next) later known?)
    (reports : ticket.Reports tokenizer delta next) (content : delta.isEmpty = false) :
    Relayed tokenizer id (some ticket)
      (.ofDelta id ticket.request.settings delta :: later) known? := by
  cases relayed with
  | idle => exact .told reports content
  | told second more =>
      rw [reports.again second] at more
      cases more

/-- **The reports of a list of requests.** Each request is told what its report says, once, also if
it is listed several times. -/
theorem report_relays : ∀ (ids : List RequestId) (c : Cluster),
    Meets (report tokenizer maxLength ids) c
      (fun batch d => d.delivered = c.delivered ∧ ∀ id,
        Relayed tokenizer id (c.scheduler.tickets.get? id) (recordsOf id batch)
          (d.scheduler.tickets.get? id))
      (fun _ _ => True)
  | [], c => ⟨rfl, fun _ => .idle⟩
  | id :: rest, c => by
      refine report_rule (fun _ => trivial) (fun _ _ _ _ => trivial)
        fun ticket delta next found reported => ?_
      have reports : ticket.Reports tokenizer delta next :=
        (Ticket.reports_of_report ticket tokenizer maxLength).of_ok reported
      refine (report_relays rest _).mono ?_ (fun _ _ _ => trivial)
      rintro later d ⟨delivered, relays⟩
      have tickets : ∀ other, (c.scheduler.tickets.insert id next).get? other =
          if other = id then some next else c.scheduler.tickets.get? other :=
        fun other => Registry.get?_insert ..
      have others : ∀ other, other ≠ id → Relayed tokenizer other
          (c.scheduler.tickets.get? other) (recordsOf other later)
          (d.scheduler.tickets.get? other) := by
        intro other differ
        have relayed := relays other
        dsimp only at relayed
        rwa [tickets, if_neg differ] at relayed
      have own := relays id
      dsimp only at own
      rw [tickets, if_pos rfl] at own
      by_cases empty : delta.isEmpty = true
      · rw [if_pos empty]
        refine ⟨delivered, fun other => ?_⟩
        by_cases same : other = id
        · subst same
          rw [reports.eq_of_isEmpty empty] at own
          rwa [found]
        · exact others other same
      · rw [if_neg empty]
        refine ⟨delivered, fun other => ?_⟩
        rw [recordsOf_cons]
        by_cases same : other = id
        · subst same
          rw [if_pos rfl, found]
          exact own.after_report reports (Bool.eq_false_iff.mpr empty)
        · rw [if_neg (Ne.symm same)]
          exact others other same

/-! ### Ending -/

/-- A request that was known is gone: from the queues, from the tickets, and from every replica. -/
structure Gone (c : Cluster) (id : RequestId) (d : Cluster) : Prop where
  queued : id ∉ d.scheduler.running ++ d.scheduler.waiting
  known : id ∉ d.scheduler.tickets.keys
  removed : ∃ ticket sequence, c.scheduler.tickets.get? id = some ticket ∧
    (∀ lane ∈ ticket.lanes, lane.sequence = some sequence) ∧
    ∀ replica ∈ d.replicas, sequence ∉ replica.sequenceIds

/-- Requests and sequences may have left; nothing else has changed. -/
structure Cleared (c d : Cluster) : Prop where
  queue : (d.scheduler.running ++ d.scheduler.waiting).Sublist
    (c.scheduler.running ++ c.scheduler.waiting)
  tickets : ∀ id ticket, d.scheduler.tickets.get? id = some ticket →
    c.scheduler.tickets.get? id = some ticket
  absent : ∀ sequence, (∀ replica ∈ c.replicas, sequence ∉ replica.sequenceIds) →
    ∀ replica ∈ d.replicas, sequence ∉ replica.sequenceIds

namespace Gone

/-- Whoever is gone stays away while others leave. -/
theorem cleared (gone : c.Gone id d) (cleared : d.Cleared e) : c.Gone id e where
  queued := fun queued => gone.queued (cleared.queue.subset queued)
  known := fun known => by
    obtain ⟨ticket, found⟩ := Registry.mem_keys_iff.mp known
    exact gone.known (Registry.mem_keys_iff.mpr ⟨ticket, cleared.tickets id ticket found⟩)
  removed := by
    obtain ⟨ticket, sequence, found, attached, absent⟩ := gone.removed
    exact ⟨ticket, sequence, found, attached, cleared.absent sequence absent⟩

/-- A ticket with the same lanes will do. -/
theorem of_reported (gone : d.Gone id e) {ticket next : Ticket}
    (found : c.scheduler.tickets.get? id = some ticket)
    (later : d.scheduler.tickets.get? id = some next) (reported : ticket.Reported next) :
    c.Gone id e := by
  refine ⟨gone.queued, gone.known, ?_⟩
  obtain ⟨_, sequence, there, attached, absent⟩ := gone.removed
  cases later.symm.trans there
  refine ⟨ticket, sequence, found, fun lane member => attached lane ?_, absent⟩
  rwa [Ticket.lanes, reported.primary, reported.others]

end Gone

theorem reclaimOne_gone (tidy : c.scheduler.Tidy) (id : RequestId) :
    Meets (reclaimOne id) c
      (fun _ d => c.Forward d ∧ c.Cleared d ∧ c.Gone id d ∧
        ∀ other, other ≠ id → d.scheduler.tickets.get? other = c.scheduler.tickets.get? other)
      (fun _ _ => True) := by
  refine (reclaimOne_forward tidy id).mono ?_ (fun _ _ _ => trivial)
  rintro _ d ⟨forward, _, queued, running, waiting, erased, ticket, sequence, found, attached,
    removed⟩
  obtain ⟨absent, others⟩ := not_mem_sequenceIds_of_removed removed
  have queue : (d.scheduler.running ++ d.scheduler.waiting).Sublist
      (c.scheduler.running ++ c.scheduler.waiting) := by
    rw [running, waiting]
    exact List.erase_sublist.append_right _
  have tickets : ∀ other, d.scheduler.tickets.get? other =
      if other = id then none else c.scheduler.tickets.get? other := fun other => by
    rw [erased, Registry.get?_erase]
  refine ⟨forward, ⟨queue, fun other held there => ?_, others⟩, ⟨queued, ?_, ticket, sequence,
    found, fun lane member => ?_, absent⟩, fun other differ => ?_⟩
  · rw [tickets] at there
    split at there
    · cases there
    · exact there
  · rw [← Registry.get?_eq_none_iff, tickets, if_pos rfl]
  · rw [tidy.alike id ticket found lane member, attached]
  · rw [tickets, if_neg differ]

/-- **The end of a list of requests.** -/
theorem reclaim_gone : ∀ (ids : List RequestId) (c : Cluster), c.scheduler.Tidy →
    Meets (reclaim ids) c
      (fun _ d => c.Forward d ∧ c.Cleared d ∧ (∀ id ∈ ids, c.Gone id d) ∧
        ∀ id ∉ ids, d.scheduler.tickets.get? id = c.scheduler.tickets.get? id)
      (fun _ _ => True)
  | [], c, tidy => by
      refine ⟨.refl tidy, ⟨List.Sublist.refl _, fun _ _ found => found, fun _ absent => absent⟩,
        fun _ member => absurd member List.not_mem_nil, fun _ _ => rfl⟩
  | id :: rest, c, tidy => by
      show Meets (reclaimOne id >>= fun _ => reclaim rest) c _ _
      rw [meets_bind]
      refine (reclaimOne_gone tidy id).mono ?_ (fun _ _ _ => trivial)
      rintro _ d ⟨forward, cleared, gone, same⟩
      refine (reclaim_gone rest d forward.tidy).mono ?_ (fun _ _ _ => trivial)
      rintro _ e ⟨forward', cleared', gone', same'⟩
      have cleared'' : c.Cleared e :=
        ⟨cleared'.queue.trans cleared.queue,
          fun id ticket found => cleared.tickets id ticket (cleared'.tickets id ticket found),
          fun sequence absent => cleared'.absent sequence (cleared.absent sequence absent)⟩
      refine ⟨forward.trans forward', cleared'', fun other member => ?_, fun other absent => ?_⟩
      · rcases List.mem_cons.mp member with rfl | later
        · exact gone.cleared cleared'
        · obtain ⟨ticket, sequence, found, attached, absent⟩ := (gone' other later).removed
          exact ⟨(gone' other later).queued, (gone' other later).known, ticket, sequence,
            cleared.tickets other ticket found, attached, absent⟩
      · rw [List.mem_cons, not_or] at absent
        rw [same' other absent.2, same other absent.1]

theorem mem_finishedIn {batch : List StreamRecord} :
    id ∈ finishedIn batch ↔ ∃ r ∈ recordsOf id batch, r.finish ≠ none := by
  simp only [finishedIn, recordsOf, List.mem_map, List.mem_filter, decide_eq_true_eq, ne_eq,
    Option.isSome_iff_ne_none]
  constructor
  · rintro ⟨r, ⟨member, finished⟩, own⟩
    exact ⟨r, ⟨member, own⟩, finished⟩
  · rintro ⟨r, ⟨member, own⟩, finished⟩
    exact ⟨r, ⟨member, finished⟩, own⟩

/-- **A round of reports.** Every request is told what its report says; whoever was told a reason to
finish is gone, and the others have moved on. -/
theorem process_relays (tidy : c.scheduler.Tidy) (ids : List RequestId) :
    Meets (process ids tokenizer maxLength) c
      (fun _ d => ∃ batch, d.delivered = c.delivered ++ [batch] ∧ ∀ id, ∃ next?,
        Relayed tokenizer id (c.scheduler.tickets.get? id) (recordsOf id batch) next? ∧
        ((∃ r ∈ recordsOf id batch, r.finish ≠ none) → c.Gone id d) ∧
        ((∀ r ∈ recordsOf id batch, r.finish = none) → d.scheduler.tickets.get? id = next?))
      (fun _ _ => True) := by
  rw [meets_process]
  have spares : Leads (Spares none) (report tokenizer maxLength ids) c := report_spares ids c tidy
  refine ((report_relays ids c).and spares).mono ?_ (fun _ _ _ => trivial)
  rintro batch d ⟨⟨delivered, relays⟩, spares⟩
  refine (reclaim_gone (finishedIn batch) { d with delivered := d.delivered ++ [batch] }
    spares.tidy).mono ?_ (fun _ _ _ => trivial)
  rintro _ e ⟨forward, _, gone, same⟩
  refine ⟨batch, ?_, fun id => ⟨_, relays id, fun finished => ?_, fun goesOn => ?_⟩⟩
  · rw [forward.delivered, ← delivered]
  · obtain ⟨r, member, some⟩ := finished
    obtain ⟨ticket, next, delta, found, later, reports, _⟩ := (relays id).of_record member
    exact (gone id (mem_finishedIn.mpr ⟨r, member, some⟩)).of_reported found later
      reports.reported
  · exact same id fun finished => by
      obtain ⟨r, member, some⟩ := mem_finishedIn.mp finished
      exact some (goesOn r member)

/-! ### One request -/

/-- What a request was told since it was submitted, together with what is known about it. -/
inductive Streamed (request : Request) (told : List StreamRecord) : Option Ticket → Prop
  /-- It goes on: it was told the tokens that count as reported. -/
  | going {ticket : Ticket} (same : ticket.request = request) (unfinished : ticket.finish = none)
      (within : ticket.reported ≤ ticket.primary.committed.length)
      (tokens : told.flatMap StreamRecord.tokens =
        ticket.primary.committedTokens.take ticket.reported)
      (goesOn : ∀ r ∈ told, r.finish = none) : Streamed request told (some ticket)
  /-- It is gone: at most its last record said so. -/
  | gone (last : ∀ r ∈ told.dropLast, r.finish = none) : Streamed request told none

/-- The tokens passed on continue those reported before. -/
theorem take_committedTokens (ticket : Ticket) (n : Nat) :
    ticket.primary.committedTokens.take ticket.reported ++
        (ticket.unreported.take n).map Sample.token =
      ticket.primary.committedTokens.take (ticket.reported + n) := by
  rw [Lane.committedTokens, Ticket.unreported, List.take_add, List.map_take, List.map_drop]

namespace Streamed

variable {request : Request} {told records : List StreamRecord} {ticket next : Ticket}
  {known? next? : Option Ticket}

theorem dropped (streamed : Streamed request told known?) : Streamed request told none := by
  cases streamed with
  | going _ _ _ _ goesOn =>
      exact .gone fun r member => goesOn r ((List.dropLast_sublist told).subset member)
  | gone last => exact .gone last

/-- New tokens come after those that were reported. -/
theorem grows (streamed : Streamed request told (some ticket)) (grows : ticket.Grows next) :
    Streamed request told (some next) := by
  cases streamed with
  | going same unfinished within tokens goesOn =>
      have longer : ticket.primary.committedTokens <+: next.primary.committedTokens :=
        grows.committed.map Sample.token
      have enough : ticket.reported ≤ ticket.primary.committedTokens.length := by
        rwa [Lane.committedTokens, List.length_map]
      refine .going (grows.request.trans same) (grows.finish.trans unfinished) ?_ ?_ goesOn
      · rw [grows.reported]
        exact Nat.le_trans within grows.committed.length_le
      · obtain ⟨more, longer⟩ := longer
        rw [tokens, grows.reported, ← longer, List.take_append_of_le_length enough]

/-- What a round of reports tells a request that goes on. -/
theorem relayed (streamed : Streamed request told known?)
    (relayed : Relayed tokenizer id known? records next?)
    (goesOn : ∀ r ∈ records, r.finish = none) : Streamed request (told ++ records) next? := by
  cases relayed with
  | idle => rwa [List.append_nil]
  | @told ticket next delta reports content =>
      have unended : delta.finish = none := goesOn _ List.mem_cons_self
      cases streamed with
      | going same unfinished within tokens goesOn =>
          cases reports with
          | ended finished => exact absurd unfinished finished
          | given => cases unended
          | @next _ n _ _ taken =>
              refine .going same unended ?_ ?_ fun r member => ?_
              · have most := taken.within
                rw [Ticket.unreported, List.length_drop] at most
                show ticket.reported + n ≤ ticket.primary.committed.length
                omega
              · rw [List.flatMap_append, tokens]
                show _ ++ (delta.tokens ++ []) = _
                rw [List.append_nil, taken.tokens]
                exact take_committedTokens ticket n
              · rcases List.mem_append.mp member with earlier | now
                · exact goesOn r earlier
                · rw [List.mem_singleton.mp now]
                  exact unended

/-- What a round of reports tells a request that ends. -/
theorem ended (streamed : Streamed request told known?)
    (relayed : Relayed tokenizer id known? records next?) :
    Streamed request (told ++ records) none := by
  cases relayed with
  | idle =>
      rw [List.append_nil]
      exact streamed.dropped
  | told reports content =>
      cases streamed with
      | going _ _ _ _ goesOn =>
          refine .gone fun r member => goesOn r ?_
          rwa [List.dropLast_concat] at member

end Streamed

/-! ### Histories -/

/-- Whether an operation is carried out if it lets requests report. -/
def Operation.smooth (c : Cluster) (operation : Operation) : Bool :=
  match operation, operation.run c with
  | .process _ _ _, .error _ _ => false
  | _, _ => true

/-- Whether all reports of a history succeed. -/
def smooth (c : Cluster) : List Operation → Bool
  | [] => true
  | operation :: rest =>
    operation.smooth c && ((operation.after c).map fun d => d.smooth rest).getD true

/-- What one operation may deliver to a request, and what is known about it afterwards. -/
def Continues (request : Request) (told : List StreamRecord) (c d : Cluster) : Prop :=
  ∃ batches, d.delivered = c.delivered ++ batches ∧
    Streamed request (told ++ recordsOf request.id batches.flatten)
      (d.scheduler.tickets.get? request.id)

variable {request : Request} {told : List StreamRecord}

/-- Nothing is delivered. -/
theorem Continues.of_silence (delivered : d.delivered = c.delivered)
    (streamed : Streamed request told (d.scheduler.tickets.get? request.id)) :
    Continues request told c d := by
  refine ⟨[], delivered.trans (List.append_nil _).symm, ?_⟩
  rwa [List.flatten_nil, recordsOf, List.filter_nil, List.append_nil]

theorem Quiet.continues (quiet : c.Quiet d)
    (streamed : Streamed request told (c.scheduler.tickets.get? request.id)) :
    Continues request told c d := by
  refine .of_silence quiet.delivered ?_
  cases there : d.scheduler.tickets.get? request.id with
  | none => exact streamed.dropped
  | some next =>
      obtain ⟨ticket, found, grows⟩ := quiet.scheduler.grown there
      rw [found] at streamed
      exact streamed.grows grows

/-- The submission of another request. -/
theorem add_continues (tidy : c.scheduler.Tidy) (newcomer : Request)
    (streamed : Streamed request told (c.scheduler.tickets.get? request.id)) :
    Meets (onScheduler (Scheduler.add newcomer)) c
      (fun _ d => newcomer.id ≠ request.id → Continues request told c d)
      (fun _ d => Continues request told c d) := by
  rw [meets_onScheduler]
  refine (Scheduler.add_line tidy newcomer).mono ?_ ?_
  · rintro _ t ⟨_, _, _, tickets⟩ other
    refine .of_silence rfl ?_
    show Streamed request told (t.tickets.get? request.id)
    rwa [tickets, Registry.get?_insert, if_neg (Ne.symm other)]
  · rintro _ t rfl
    exact .of_silence rfl streamed

/-- A round of reports. -/
theorem process_continues (tidy : c.scheduler.Tidy) (ids : List RequestId)
    (streamed : Streamed request told (c.scheduler.tickets.get? request.id)) :
    Meets (process ids tokenizer maxLength) c (fun _ d => Continues request told c d)
      (fun _ _ => True) := by
  refine (process_relays tidy ids).mono ?_ (fun _ _ _ => trivial)
  rintro _ d ⟨batch, delivered, relays⟩
  obtain ⟨next?, relayed, gone, goesOn⟩ := relays request.id
  refine ⟨[batch], delivered, ?_⟩
  rw [List.flatten_singleton]
  by_cases finished : ∃ r ∈ recordsOf request.id batch, r.finish ≠ none
  · rw [Registry.get?_eq_none_iff.mpr (gone finished).known]
    exact streamed.ended relayed
  · have unended : ∀ r ∈ recordsOf request.id batch, r.finish = none := fun r member =>
      by_contra fun some => finished ⟨r, member, some⟩
    rw [goesOn unended]
    exact streamed.relayed relayed unended

/-- **One operation**, other than the submission of this request. -/
theorem Operation.continues (tidy : c.scheduler.Tidy) {operation : Operation}
    (smooth : operation.smooth c = true) (other : operation.arrival? c ≠ some request.id)
    (ended : operation.after c = some d)
    (streamed : Streamed request told (c.scheduler.tickets.get? request.id)) :
    Continues request told c d := by
  have silent : operation.Silent → Continues request told c d := by
    intro silent
    have leads := Operation.quiet tidy silent
    refine Quiet.continues ?_ streamed
    rcases run_of_after ended with run | ⟨cause, run⟩
    · exact (meets_iff_of_ok run).mp leads
    · exact Meets.of_error leads run
  cases operation with
  | add newcomer =>
      have added := add_continues tidy newcomer streamed
      rcases run_of_after ended with run | ⟨cause, run⟩
      · refine (meets_iff_of_ok run).mp added fun same => other ?_
        rw [arrival?, run]
        exact congrArg some same
      · exact added.of_error run
  | process ids tokenizer maxLength =>
      rcases run_of_after ended with run | ⟨cause, run⟩
      · have processed : Meets (Operation.run (.process ids tokenizer maxLength)) c
            (fun _ d => Continues request told c d) (fun _ _ => True) := by
          unfold Operation.run
          rw [meets_discard]
          exact process_continues tidy ids streamed
        exact (meets_iff_of_ok run).mp processed
      · unfold Operation.smooth at smooth
        rw [run] at smooth
        cases smooth
  | _ => exact silent trivial

/-- **Any history** without another submission of this request, in which all reports succeed. -/
theorem streamed_after (tidy : c.scheduler.Tidy) {history : List Operation}
    (smooth : c.smooth history = true) (once : request.id ∉ c.arrivals history)
    (ended : c.after history = some d)
    (streamed : Streamed request told (c.scheduler.tickets.get? request.id)) :
    d.scheduler.Tidy ∧ Continues request told c d := by
  induction history generalizing c told with
  | nil =>
      cases ended
      exact ⟨tidy, .of_silence rfl streamed⟩
  | cons operation rest ih =>
      obtain ⟨e, first, later⟩ := Option.bind_eq_some_iff.mp ended
      rw [Cluster.smooth, first, Bool.and_eq_true] at smooth
      rw [arrivals, first, List.mem_append, not_or] at once
      have other : operation.arrival? c ≠ some request.id := fun same =>
        once.1 (by rw [same]; exact List.mem_cons_self)
      obtain ⟨batches, delivered, streamed⟩ :=
        Operation.continues tidy smooth.1 other first streamed
      obtain ⟨tidy, more, delivered', streamed⟩ :=
        ih (operation.follows_of_after tidy first).tidy smooth.2 once.2 later streamed
      refine ⟨tidy, batches ++ more, ?_, ?_⟩
      · rw [delivered', delivered, List.append_assoc]
      · rwa [List.flatten_append, recordsOf_append, ← List.append_assoc]

/-- What was delivered between two moments. -/
def deliveredSince (c d : Cluster) : List StreamRecord :=
  (d.delivered.drop c.delivered.length).flatten

/-- A request was told the tokens that count as reported, in order, and if a record gave a reason to
finish, this was the last one and the request is not there any more. -/
structure Informed (c : Cluster) (request : Request) (told : List StreamRecord) : Prop where
  known : ∀ ticket, c.scheduler.tickets.get? request.id = some ticket →
    ticket.request = request ∧ ticket.reported ≤ ticket.primary.committed.length ∧
      told.flatMap StreamRecord.tokens = ticket.primary.committedTokens.take ticket.reported ∧
      ∀ r ∈ told, r.finish = none
  last : ∀ r ∈ told.dropLast, r.finish = none
  gone : (∃ r ∈ told, r.finish ≠ none) → request.id ∉ c.scheduler.tickets.keys ∧
    request.id ∉ c.scheduler.running ++ c.scheduler.waiting

/-- A round of reports sends a request one record at most. It passes on the tokens that come next,
none if the request was given up; logprobs, if there are any, spell out these tokens, one for each;
and with a reason to finish the request is gone when the round is over. -/
structure Informs (c : Cluster) (tokenizer : Tokenizer) (id : RequestId)
    (told batch : List StreamRecord) (d : Cluster) : Prop where
  single : (recordsOf id batch).length ≤ 1
  record : ∀ r ∈ recordsOf id batch, ∃ ticket n, c.scheduler.tickets.get? id = some ticket ∧
    n ≤ ticket.unreported.length ∧ r.tokens = (ticket.unreported.take n).map Sample.token ∧
    (told ++ [r]).flatMap StreamRecord.tokens =
      ticket.primary.committedTokens.take (ticket.reported + n) ∧
    (r.finish = some .abort → r.tokens = []) ∧
    (∀ texts, r.logprobs = some texts → texts.length = r.tokens.length ∧
      Spelled tokenizer ticket.request.settings.logprobs (ticket.unreported.take n) texts) ∧
    (r.finish ≠ none → c.Gone id d)

theorem Streamed.informed (tidy : c.scheduler.Tidy)
    (streamed : Streamed request told (c.scheduler.tickets.get? request.id)) :
    c.Informed request told := by
  cases known : c.scheduler.tickets.get? request.id with
  | none =>
      rw [known] at streamed
      have absent := Registry.get?_eq_none_iff.mp known
      cases streamed with
      | gone last =>
          refine ⟨fun ticket found => ?_, last, fun _ => ⟨absent, fun queued => ?_⟩⟩
          · cases known.symm.trans found
          · exact absent (tidy.known _ queued)
  | some ticket =>
      rw [known] at streamed
      cases streamed with
      | going same unfinished within tokens goesOn =>
          refine ⟨fun other found => ?_, fun r member => ?_, ?_⟩
          · cases known.symm.trans found
            exact ⟨same, within, tokens, goesOn⟩
          · exact goesOn r ((List.dropLast_sublist told).subset member)
          · rintro ⟨r, member, finished⟩
            exact absurd (goesOn r member) finished

/-- What the record of a request says. -/
theorem Streamed.passes {ticket next : Ticket} {delta : Delta}
    (streamed : Streamed request told (some ticket)) (reports : ticket.Reports tokenizer delta next)
    {r : StreamRecord} (record : r = .ofDelta id ticket.request.settings delta) :
    ∃ n ≤ ticket.unreported.length, r.tokens = (ticket.unreported.take n).map Sample.token ∧
      (told ++ [r]).flatMap StreamRecord.tokens =
        ticket.primary.committedTokens.take (ticket.reported + n) ∧
      (r.finish = some .abort → r.tokens = []) ∧
      ∀ texts, r.logprobs = some texts → texts.length = r.tokens.length ∧
        Spelled tokenizer ticket.request.settings.logprobs (ticket.unreported.take n) texts := by
  obtain ⟨same, unfinished, within, tokens, goesOn⟩ := streamed
  have passed (n : Nat) (own : r.tokens = (ticket.unreported.take n).map Sample.token) :
      (told ++ [r]).flatMap StreamRecord.tokens =
        ticket.primary.committedTokens.take (ticket.reported + n) := by
    rw [List.flatMap_append, List.flatMap_singleton, tokens, own, take_committedTokens]
  subst record
  cases reports with
  | ended finished => exact absurd unfinished finished
  | given =>
      refine ⟨0, Nat.zero_le _, rfl, passed 0 rfl, fun _ => rfl, fun texts there => ?_⟩
      replace there : (if 0 < ticket.request.settings.logprobs then none else none) =
        some texts := there
      rw [ite_self] at there
      cases there
  | @next _ n _ _ taken =>
      refine ⟨n, taken.within, taken.tokens, passed n taken.tokens, fun abort => ?_,
        fun texts there => ?_⟩
      · exact absurd rfl (taken.reason .abort abort).2
      · replace there : (if 0 < ticket.request.settings.logprobs then delta.logprobs else none) =
          some texts := there
        split at there
        · have spelled := taken.spelled texts there
          refine ⟨?_, spelled⟩
          show texts.length = delta.tokens.length
          rw [taken.tokens, List.length_map, spelled.length_eq]
        · cases there

/-- Right after its submission a request was told nothing. -/
theorem streamed_of_submitted {request : Request} (tidy : c.scheduler.Tidy)
    (submitted : Operation.run (.add request) c = .ok () d) :
    d.scheduler.Tidy ∧ Streamed request [] (d.scheduler.tickets.get? request.id) := by
  have added : Meets (onScheduler (Scheduler.add request)) c
      (fun _ d => d.scheduler.Tidy ∧
        d.scheduler.tickets.get? request.id = some (.ofRequest request c.scheduler.laneCount))
      (fun _ _ => True) := by
    rw [meets_onScheduler]
    refine (Scheduler.add_line tidy request).mono ?_ (fun _ _ _ => trivial)
    rintro _ t ⟨tidy', _, _, tickets⟩
    refine ⟨tidy', ?_⟩
    show t.tickets.get? request.id = _
    rw [tickets, Registry.get?_insert, if_pos rfl]
  obtain ⟨tidy', found⟩ := (meets_iff_of_ok submitted).mp added
  rw [found]
  exact ⟨tidy', .going rfl rfl (Nat.zero_le _) rfl fun _ absent => absurd absent List.not_mem_nil⟩

/-- What a round of reports says to a request. -/
theorem Streamed.informs (tidy : c.scheduler.Tidy)
    (streamed : Streamed request told (c.scheduler.tickets.get? request.id))
    (ids : List RequestId) :
    Meets (process ids tokenizer maxLength) c
      (fun _ d => ∃ batch, d.delivered = c.delivered ++ [batch] ∧
        c.Informs tokenizer request.id told batch d)
      (fun _ _ => True) := by
  refine (process_relays tidy ids).mono ?_ (fun _ _ _ => trivial)
  rintro _ d ⟨batch, delivered, relays⟩
  obtain ⟨next?, relayed, gone, _⟩ := relays request.id
  refine ⟨batch, delivered, ?_, fun r member => ?_⟩
  · exact relayed.length_le
  · obtain ⟨ticket, next, delta, found, _, reports, _, record⟩ := relayed.of_record member
    rw [found] at streamed
    obtain ⟨n, within, tokens, all, aborted, logprobs⟩ := streamed.passes reports record
    exact ⟨ticket, n, found, within, tokens, all, aborted, logprobs,
      fun finished => gone ⟨r, member, finished⟩⟩

/-- **Exactly once.** Let a request be submitted at some point of any history, and let any
operations follow in which all reports succeed and the request is not submitted again. It was told
what was reported, in order and once, whether or not it was preempted in between, and the next round
of reports that succeeds goes on where the last one stopped. -/
theorem streamed_exactly_once {replicas : List Replica} {lanes : Nat} {ids : SequenceIds}
    {before later : List Operation} {start opened : Cluster}
    (reached : (ofReplicas replicas lanes ids).after before = some start)
    (submitted : Operation.run (.add request) start = .ok () opened)
    (ended : opened.after later = some c) (once : request.id ∉ opened.arrivals later)
    (smooth : opened.smooth later = true) :
    c.Informed request (recordsOf request.id (opened.deliveredSince c)) ∧
      ∀ (ids : List RequestId) (tokenizer : Tokenizer) (maxLength : Nat)
          (finished : List RequestId) (d : Cluster),
        process ids tokenizer maxLength c = .ok finished d →
        ∃ batch, d.delivered = c.delivered ++ [batch] ∧
          c.Informs tokenizer request.id (recordsOf request.id (opened.deliveredSince c)) batch d :=
  by
  have empty : (ofReplicas replicas lanes ids).scheduler.line.Sublist ([] : List RequestId).dedup :=
    List.Sublist.refl []
  have tidy := (line_after (Scheduler.tidy_ofSize lanes ids) empty reached).1
  obtain ⟨tidy', unheard⟩ := streamed_of_submitted tidy submitted
  obtain ⟨settled, batches, delivered, streamed⟩ :=
    streamed_after tidy' smooth once ended unheard
  have since : opened.deliveredSince c = batches.flatten := by
    rw [deliveredSince, delivered, List.drop_left]
  rw [since]
  rw [List.nil_append] at streamed
  exact ⟨streamed.informed settled, fun ids tokenizer maxLength finished d processed =>
    (meets_iff_of_ok processed).mp (streamed.informs settled ids)⟩

/-- A request that reports two of its tokens together. -/
def interruptedRequest : Request :=
  ⟨"a", [.tokens [1, 2, 3]], { GenerationSettings.usual with maxTokens := 4, logprobs := 1 }⟩

/-- Its further history: it is told the first two tokens, preempted with one token that it was not
told, and given its last one after it was started again. -/
def interruptedHistory : List Operation :=
  let start : Operation := .start 1 (fun _ _ _ => (true, ())) ()
  [start, .forward 0 0 [.tokens [1, 2, 3]], .changeLane "a" 0 .takeInputs,
    .commit "a" 0 (.plain 65 .one), .commit "a" 0 (.plain 66 .one), .process ["a"] (.bytes none) 10,
    .commit "a" 0 (.plain 67 .one), .preemptLast, start, .commit "a" 0 (.plain 68 .one)]

/-- The last round of reports after this history tells the two tokens that are left. -/
theorem streamed_exactly_once_interrupted :
    ∃ opened c finished d batch,
      Operation.run (.add interruptedRequest)
        (ofReplicas [.paged (.ofSize "first" 8 2 countTokens)] 1 (.ofCapacity 2)) =
          .ok () opened ∧
      opened.after interruptedHistory = some c ∧
      process ["a"] (.bytes none) 10 c = .ok finished d ∧
      (opened.deliveredSince c).flatMap StreamRecord.tokens = [65, 66] ∧
      batch.map (fun r => (r.tokens, r.finish)) = [([67, 68], some .length)] ∧
      c.Informed interruptedRequest (recordsOf "a" (opened.deliveredSince c)) ∧
      d.delivered = c.delivered ++ [batch] ∧
      c.Informs (.bytes none) "a" (recordsOf "a" (opened.deliveredSince c)) batch d := by
  have opens : (completed (Operation.run (.add interruptedRequest))
      (ofReplicas [.paged (.ofSize "first" 8 2 countTokens)] 1 (.ofCapacity 2))).any (fun opening =>
        (opening.2.after interruptedHistory).any fun c =>
          opening.2.smooth interruptedHistory &&
          decide ("a" ∉ opening.2.arrivals interruptedHistory) &&
          decide ((opening.2.deliveredSince c).flatMap StreamRecord.tokens = [65, 66]) &&
          (completed (process ["a"] (.bytes none) 10) c).any fun ending =>
            decide ((ending.2.delivered.drop c.delivered.length).map (fun batch =>
              batch.map fun r => (r.tokens, r.finish)) = [[([67, 68], some .length)]])) = true := by
    decide +kernel
  obtain ⟨⟨_, opened⟩, submitted, opens⟩ := Option.any_eq_true .. |>.mp opens
  obtain ⟨c, ended, state⟩ := Option.any_eq_true .. |>.mp opens
  simp only [Bool.and_eq_true, decide_eq_true_eq] at state
  obtain ⟨⟨⟨smooth, once⟩, told⟩, state⟩ := state
  obtain ⟨⟨finished, d⟩, processed, records⟩ := Option.any_eq_true .. |>.mp state
  have submitted := completed_eq_some.mp submitted
  have processed := completed_eq_some.mp processed
  have reached : (ofReplicas [.paged (.ofSize "first" 8 2 countTokens)] 1
      (.ofCapacity 2)).after [] = some _ := rfl
  obtain ⟨informed, informs⟩ := streamed_exactly_once reached submitted ended once smooth
  obtain ⟨batch, delivered, informs⟩ := informs ["a"] (.bytes none) 10 finished d processed
  have records := of_decide_eq_true records
  rw [delivered, List.drop_left] at records
  exact ⟨opened, c, finished, d, batch, submitted, ended, processed, told,
    (List.cons.inj records).1, informed, delivered, informs⟩

end Cluster

end ContinuousBatching
