/-
**What a step tells the callers.**

After the batch was fed, every request of it has one new token, which it reports together with the
judgement of all its tokens; a running request that was given up reports that it ends. Both are
*expectant*. What a request is told depends on its own stream only (`Told`): the next token, and
whether the stream ends there.

* `Ticket.report_of_expectant`: the report of one request;
* `report_meets`: the reports of a list of requests, each of which gets its own record;
* `reporters_eq`: the requests that report are the batch and everybody who was given up.
-/

import ContinuousBatching.Proofs.Engine.Batch
import ContinuousBatching.Scheduler.Completion

namespace ContinuousBatching

/-- What the records of a batch tell about a request. -/
def toldOf (id : RequestId) (batch : List StreamRecord) :
    List (List TokenId × Option FinishReason) :=
  (batch.filter fun r => r.request = id).map fun r => (r.tokens, r.finish)

/-- What a request is told in a step, and what is known about it afterwards, if it goes on. -/
inductive Told (p : Premises) (before : Terms) :
    List (List TokenId × Option FinishReason) → Option Terms → Prop
  /-- It had no turn. -/
  | nothing : Told p before [] (some before)
  /-- It gets the next token of its stream and goes on. -/
  | next {token : TokenId} (wanted : before.abortRequested = false)
      (stream : p.stream before.request (before.reported + 1) =
        p.stream before.request before.reported ++ [token])
      (judged : p.judgement before.request (before.reported + 1) = .ok none) :
      Told p before [([token], none)]
        (some { before with reported := before.reported + 1, finish := none })
  /-- It gets the next token of its stream, which ends it. -/
  | last {token : TokenId} {reason : FinishReason} (wanted : before.abortRequested = false)
      (stream : p.stream before.request (before.reported + 1) =
        p.stream before.request before.reported ++ [token])
      (judged : p.judgement before.request (before.reported + 1) = .ok (some reason)) :
      Told p before [([token], some reason)] none
  /-- The next token of its stream cannot be judged, so it ends. -/
  | broken {cause : Failure} (wanted : before.abortRequested = false)
      (judged : p.judgement before.request (before.reported + 1) = .error (.refused cause)) :
      Told p before [([], some .abort)] none
  /-- It was given up, so it ends. -/
  | givenUp (given : before.abortRequested = true) : Told p before [([], some .abort)] none

/-- A request that goes on with one token more was told that token. -/
theorem Told.of_some {p : Premises} {before after : Terms}
    {told : List (List TokenId × Option FinishReason)} (tells : Told p before told (some after))
    (grows : after.reported = before.reported + 1) :
    before.abortRequested = false ∧
      p.judgement before.request (before.reported + 1) = .ok none ∧
      after = { before with reported := before.reported + 1, finish := none } := by
  cases tells with
  | nothing => omega
  | next wanted _ judged => exact ⟨wanted, judged, rfl⟩

/-- A request that goes on was not given up by its report. -/
theorem Told.abortRequested_of_some {p : Premises} {before after : Terms}
    {told : List (List TokenId × Option FinishReason)} (tells : Told p before told (some after)) :
    after.abortRequested = before.abortRequested := by
  cases tells <;> rfl

/-- What is known about a request afterwards, unless it finished. -/
def Terms.kept (terms : Terms) : Option Terms := if terms.finish.isSome then none else some terms

theorem Terms.kept_of_unfinished {terms : Terms} (unfinished : terms.finish = none) :
    terms.kept = some terms := by
  rw [kept, unfinished]
  rfl

theorem Terms.kept_of_finished {terms : Terms} {reason : FinishReason}
    (finished : terms.finish = some reason) : terms.kept = none := by
  rw [kept, finished]
  rfl

@[simp]
theorem toldOf_nil (id : RequestId) : toldOf id [] = [] := rfl

theorem toldOf_cons (id other : RequestId) (settings : GenerationSettings) (delta : Delta)
    (batch : List StreamRecord) :
    toldOf other (.ofDelta id settings delta :: batch) =
      if id = other then (delta.tokens, delta.finish) :: toldOf other batch
      else toldOf other batch := by
  unfold toldOf
  rw [List.filter_cons]
  simp only [decide_eq_true_iff]
  show (if id = other then _ else _ : List StreamRecord).map _ = _
  split <;> rfl

/-! ### One request -/

namespace Premises

variable {p : Premises} {request : Request} {n : Nat}

/-- Requests report what they committed on the first replica. -/
theorem first_model (p : Premises) : p.models[0]? = some (p.models.head p.replicated) := by
  rw [← List.head?_eq_getElem?, List.head?_eq_some_head]

/-- A stream grows by one token at a time. -/
theorem stream_succ : p.stream request (n + 1) = p.stream request n ++
    [((p.models.head p.replicated).nextToken
      (tokenIds request.inputs ++ p.stream request n)).token] := by
  rw [stream, solo, List.map_append, List.map_singleton]
  rfl

@[simp]
theorem length_stream : (p.stream request n).length = n := by
  rw [stream, List.length_map, length_solo]

/-- A judgement that is not there was refused for a cause that is not fatal, unless the length needs
more than 64 bits. -/
theorem judgement_yields (p : Premises) (request : Request) (n : Nat) :
    Yields (p.judgement request n) (fun _ => True)
      (fun stop => (∃ cause, stop = .refused cause ∧ cause.isFatal = false) ∨
        Overflows (request.inputLength + n) stop) := by
  have judged := request.judge_yields p.tokenizer p.settings.maxLength (p.stream request n)
  rw [length_stream] at judged
  refine judged.mono (fun _ _ => trivial) ?_
  rintro _ (⟨cause, failed, rfl⟩ | large)
  · exact Or.inl ⟨cause, rfl, p.lenient _ cause failed⟩
  · exact Or.inr large

/-- A request that goes on may generate more tokens than it has. -/
theorem lt_of_goesOn (judged : p.judgement request n = .ok none) :
    n < max request.settings.maxTokens 1 := by
  rw [judgement] at judged
  have short := (request.judge_yields _ _ _).of_ok judged rfl
  by_cases fresh : n = 0
  · omega
  · have tokens : p.stream request n ≠ [] := by
      rwa [← List.length_pos_iff, length_stream, Nat.pos_iff_ne_zero]
    have fewer := short tokens
    rw [length_stream] at fewer
    omega

end Premises

namespace Ticket

variable {p : Premises} {ticket : Ticket} {caches : List PagedCache} {runs : Prop}

/-- The request has something to report: that it was given up, or one new token. -/
structure Expectant (ticket : Ticket) : Prop where
  unfinished : ticket.finish = none
  due : ticket.abortRequested = false →
    ticket.primary.committed.length = ticket.reported + 1

/-- The tokens of a request are those of its stream. -/
theorem Stands.committedTokens (stands : ticket.Stands p.models caches runs) :
    ticket.primary.committedTokens =
      p.stream ticket.request ticket.primary.committed.length := by
  have alone := stands.alone 0 ticket.primary _ Ticket.lane?_zero p.first_model
  rw [Premises.stream, Lane.committedTokens, ← alone.committed]

/-- The samples of a request that has one token to report. -/
theorem Stands.unreported (stands : ticket.Stands p.models caches runs)
    (length : ticket.primary.committed.length = ticket.reported + 1) :
    ∃ sample, ticket.unreported = [sample] ∧
      p.stream ticket.request (ticket.reported + 1) =
        p.stream ticket.request ticket.reported ++ [sample.token] := by
  have alone := (stands.alone 0 ticket.primary _ Ticket.lane?_zero p.first_model).committed
  rw [length, solo] at alone
  let sample := (p.models.head p.replicated).nextToken
    (tokenIds ticket.request.inputs ++ p.stream ticket.request ticket.reported)
  refine ⟨sample, ?_, Premises.stream_succ⟩
  rw [Ticket.unreported, alone, List.drop_left' (length_solo _)]
  rfl

/-- **The report of one request.** -/
theorem report_of_expectant (stands : ticket.Stands p.models caches runs)
    (expectant : ticket.Expectant) :
    Yields (ticket.report p.tokenizer p.settings.maxLength)
      (fun result => ticket.Reported result.2 ∧
        (result.2.finish = none → result.2.reported = ticket.reported + 1) ∧
        result.1.finish = result.2.finish ∧ result.1.isEmpty = false ∧
        Told p ticket.terms [(result.1.tokens, result.1.finish)] result.2.terms.kept)
      (Overflows (ticket.request.inputLength + ticket.reported + 1)) := by
  have unfinished := expectant.unfinished
  by_cases given : ticket.abortRequested = true
  · rw [report_of_aborted unfinished given]
    refine ⟨⟨rfl, rfl, rfl⟩, fun unended => ?_, rfl, rfl, .givenUp given⟩
    cases unended
  · have wanted : ticket.abortRequested = false := Bool.eq_false_iff.mpr given
    have length := expectant.due wanted
    obtain ⟨sample, new, stream⟩ := stands.unreported length
    have judged : ticket.request.judge p.tokenizer p.settings.maxLength
        ticket.primary.committedTokens = p.judgement ticket.request (ticket.reported + 1) := by
      rw [stands.committedTokens, length, Premises.judgement]
    have report := report_of_next unfinished wanted new p.tokenizer p.settings.maxLength
    rw [judged] at report
    refine report.mono ?_ ?_
    · rintro ⟨delta, next⟩ (⟨reason?, verdict, tokens, finish, same⟩ |
        ⟨cause, verdict, _, tokens, finish, same⟩)
      · dsimp only at tokens finish same ⊢
        subst same
        rw [tokens, finish]
        refine ⟨⟨rfl, rfl, rfl⟩, fun _ => rfl, rfl, ?_, ?_⟩
        · rw [Delta.isEmpty, tokens]
          rfl
        · cases reason? with
          | none =>
              show Told p ticket.terms [([sample.token], none)]
                (some { ticket.terms with reported := ticket.reported + 1, finish := none })
              exact .next wanted stream verdict
          | some reason =>
              show Told p ticket.terms [([sample.token], some reason)] none
              exact .last wanted stream verdict
      · dsimp only at tokens finish same ⊢
        subst same
        rw [tokens, finish]
        refine ⟨⟨rfl, rfl, rfl⟩, fun unended => ?_, rfl, ?_, .broken wanted verdict⟩
        · cases unended
        · rw [Delta.isEmpty, finish, Bool.and_eq_false_iff]
          exact Or.inr rfl
    · rintro stop ⟨failed, fatal⟩
      rcases (p.judgement_yields _ _).of_error failed with ⟨cause, rfl, trivial⟩ | large
      · rw [fatal cause rfl] at trivial
        cases trivial
      · exact large

end Ticket

/-! ### All reports -/

namespace Cluster

variable {p : Premises} {c d e : Cluster} {caches caches' : List PagedCache} {id : RequestId}
  {ticket next : Ticket} {list batch : List RequestId} {records : List StreamRecord}

/-- Tokens that did not end a request are fewer than it may generate. -/
theorem AtRest.reported_lt (rest : c.AtRest p caches)
    (found : c.scheduler.tickets.get? id = some ticket) :
    ticket.reported < max ticket.request.settings.maxTokens 1 :=
  Premises.lt_of_goesOn ((rest.settled id ticket found).judged ticket.reported (Nat.le_refl _))

theorem finishedIn_cons (r : StreamRecord) (records : List StreamRecord) :
    finishedIn (r :: records) =
      if r.finish.isSome then r.request :: finishedIn records else finishedIn records := by
  unfold finishedIn
  rw [List.filter_cons]
  split <;> rfl

/-- These requests reported, each in a record of its own, and the others were left alone. -/
structure Answered (p : Premises) (list : List RequestId) (d e : Cluster)
    (records : List StreamRecord) : Prop where
  running : e.scheduler.running = d.scheduler.running
  totals : e.scheduler.totals = d.scheduler.totals
  delivered : e.delivered = d.delivered
  others : ∀ id, id ∉ list →
    e.scheduler.tickets.get? id = d.scheduler.tickets.get? id ∧ toldOf id records = []
  own : ∀ id ∈ list, ∀ ticket, d.scheduler.tickets.get? id = some ticket →
    ∃ next, e.scheduler.tickets.get? id = some next ∧ ticket.Reported next ∧
      (next.finish = none → next.reported = ticket.reported + 1) ∧
      (id ∈ finishedIn records ↔ next.finish ≠ none) ∧
      Told p ticket.terms (toldOf id records) next.terms.kept
  finished : (finishedIn records).Sublist list

/-- **One report more**, before the others. -/
theorem Answered.cons {delta : Delta} (absent : id ∉ list)
    (found : d.scheduler.tickets.get? id = some ticket) (reported : ticket.Reported next)
    (grows : next.finish = none → next.reported = ticket.reported + 1)
    (finish : delta.finish = next.finish)
    (told : Told p ticket.terms [(delta.tokens, delta.finish)] next.terms.kept)
    (answered : Answered p list
      { d with scheduler := { d.scheduler with tickets := d.scheduler.tickets.insert id next } } e
      records) :
    Answered p (id :: list) d e (.ofDelta id ticket.request.settings delta :: records) := by
  have own := answered.others id absent
  have unfinished : id ∉ finishedIn records := fun member =>
    absent (answered.finished.subset member)
  have first : finishedIn (.ofDelta id ticket.request.settings delta :: records) =
      if next.finish.isSome then id :: finishedIn records else finishedIn records := by
    rw [finishedIn_cons, ← finish]
    rfl
  have kept : ∀ other, other ≠ id →
      toldOf other (.ofDelta id ticket.request.settings delta :: records) =
        toldOf other records ∧
      (d.scheduler.tickets.insert id next).get? other = d.scheduler.tickets.get? other := by
    intro other differ
    rw [toldOf_cons, if_neg (Ne.symm differ), Registry.get?_insert, if_neg differ]
    exact ⟨rfl, rfl⟩
  refine ⟨answered.running, answered.totals, answered.delivered, fun other absent => ?_,
    fun other member held there => ?_, ?_⟩
  · obtain ⟨differ, absent⟩ := not_or.mp (List.mem_cons.not.mp absent)
    obtain ⟨tickets, told⟩ := answered.others other absent
    exact ⟨tickets.trans (kept other differ).2, (kept other differ).1.trans told⟩
  · by_cases same : other = id
    · subst same
      cases found.symm.trans there
      refine ⟨next, ?_, reported, grows, ?_, ?_⟩
      · rw [own.1]
        show (d.scheduler.tickets.insert other next).get? other = _
        rw [Registry.get?_insert, if_pos rfl]
      · rw [first]
        cases next.finish with
        | none => simpa using unfinished
        | some reason => simp
      · rw [toldOf_cons, if_pos rfl, own.2]
        exact told
    · obtain ⟨next', now, reported, grows, ended, told⟩ := answered.own other
        ((List.mem_cons.mp member).resolve_left same) held ((kept other same).2.trans there)
      refine ⟨next', now, reported, grows, ?_, ?_⟩
      · rw [← ended, first]
        split
        · rw [List.mem_cons, or_iff_right same]
        · exact Iff.rfl
      · rw [(kept other same).1]
        exact told
  · rw [first]
    split
    · exact answered.finished.cons_cons id
    · exact answered.finished.cons id

/-- **The reports of expectant requests.** -/
theorem report_meets {bound : Nat} : ∀ (list : List RequestId) (d : Cluster), d.Live p caches →
    list.Nodup →
    (∀ id ∈ list, ∃ ticket, d.scheduler.tickets.get? id = some ticket ∧ ticket.Expectant ∧
      ticket.request.inputLength + ticket.reported + 1 ≤ bound) →
    Meets (report p.tokenizer p.settings.maxLength list) d
      (fun records e => e.Live p caches ∧ Answered p list d e records)
      (fun stop _ => Overflows bound stop)
  | [], d, live, _, _ => by
      refine ⟨live, rfl, rfl, rfl, fun _ _ => ⟨rfl, rfl⟩, fun _ member => ?_, List.Sublist.refl _⟩
      cases member
  | id :: rest, d, live, nodup, expectant => by
      obtain ⟨absent, nodup⟩ := List.nodup_cons.mp nodup
      obtain ⟨ticket, found, expects, below⟩ := expectant id List.mem_cons_self
      have report := Ticket.report_of_expectant (live.stands id ticket found) expects
      refine report_rule (fun absent => ?_) (fun ticket' stop found' failed => ?_)
        fun ticket' delta next found' reported => ?_
      · cases absent.symm.trans found
      · cases found.symm.trans found'
        exact (report.of_error failed).mono below
      cases found.symm.trans found'
      obtain ⟨reported, grows, finish, filled, told⟩ := report.of_ok reported
      dsimp only at reported grows finish filled told
      have lanes : next.lanes = ticket.lanes := by
        rw [Ticket.lanes, Ticket.lanes, reported.primary, reported.others]
      have replaced : Live p { d with
          scheduler := { d.scheduler with tickets := d.scheduler.tickets.insert id next } }
          caches :=
        live.replaced next found lanes reported.request rfl rfl
      refine (report_meets rest _ replaced nodup fun other member => ?_).mono ?_
        (fun _ _ large => large)
      · obtain ⟨held, there, expects, below⟩ := expectant other (List.mem_cons_of_mem _ member)
        have differ : other ≠ id := fun same => absent (same ▸ member)
        refine ⟨held, ?_, expects, below⟩
        show (d.scheduler.tickets.insert id next).get? other = _
        rw [Registry.get?_insert, if_neg differ]
        exact there
      · rintro records e ⟨live, answered⟩
        rw [if_neg (Bool.eq_false_iff.mp filled)]
        exact ⟨live, answered.cons absent found reported grows finish told⟩

end Cluster

end ContinuousBatching
