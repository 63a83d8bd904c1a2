/-
**Reports against the whole stream.**

A ticket keeps only the number of tokens that it reported, and a report scans the tokens after that.
Here what reports say is described without a cursor, over the stream of all tokens that are ever
committed.

* `Reporting.Answers`: what one report says, in terms of the stream, of the number of tokens
  committed so far and of the number returned before;
* `Ticket.follow`: a request through tokens that come in and reports that are asked for, in any
  order;
* `Ticket.reports_by_reference`: every report of every such run answers by the stream;
* `Ticket.report_of_widest_overflows`: the one way in which a report can fail.
-/

import ContinuousBatching.Proofs.Request.Reasons

namespace ContinuousBatching

namespace Reporting

/-- What has to be passed on when `committed` tokens of the stream are there: all of them, or those
through the first one that ends the request. -/
def Due (rules : Reporting) (tokens : List TokenId) (committed through : Nat) : Prop :=
  (∃ f < committed, rules.EndsAt tokens f ∧ through = f + 1) ∨
    (rules.OpenBefore tokens committed ∧ through = committed)

/-- **What one report says**, when `committed` samples of the stream are there and the tokens of
`returned` of them were returned before. -/
structure Answers (rules : Reporting) (stream : List Sample) (committed returned through : Nat)
    (delta : Delta) : Prop where
  due : rules.Due (stream.map Sample.token) committed through
  /-- It passes on exactly the tokens that are due and were not returned before. -/
  tokens : delta.tokens = ((stream.take through).drop returned).map Sample.token
  /-- The report that passes on the first token to end the request, and only that one, says why. -/
  finish : ∀ reason, delta.finish = some reason ↔ ∃ f, returned ≤ f ∧ f < committed ∧
    rules.EndsAt (stream.map Sample.token) f ∧ rules.Prevails (stream.map Sample.token) f reason
  /-- Every later report is empty. -/
  later : ∀ f < returned, rules.EndsAt (stream.map Sample.token) f → delta = Delta.none
  /-- If logprobs are asked for, there is one for each token passed on, until the request ended. -/
  rendered : rules.withLogprobs = true →
    rules.OpenBefore (stream.map Sample.token) returned →
      ∃ texts, delta.logprobs = some texts ∧
        Spelled rules.tokenizer rules.settings.logprobs ((stream.take through).drop returned) texts
  /-- Otherwise there are none. -/
  unrendered : rules.withLogprobs = false → delta.logprobs = none

section Answers

variable {rules : Reporting} {stream : List Sample} {returned through : Nat} {delta : Delta}

theorem Scanned.length_tokens (scanned : rules.Scanned stream returned through delta) :
    returned + delta.tokens.length = through := by
  rw [scanned.tokens, List.length_map, List.length_drop, List.length_take_of_le scanned.within]
  exact Nat.add_sub_of_le scanned.begins

/-- A scan of all that was committed answers by the stream so far. -/
theorem Scanned.answers (scanned : rules.Scanned stream returned through delta)
    (before : rules.OpenBefore (stream.map Sample.token) returned) :
    rules.Answers stream stream.length returned through delta where
  due := by
    cases ended : delta.finish with
    | none =>
        obtain ⟨all, goesOn⟩ := scanned.goesOn ended
        rw [all] at goesOn
        exact Or.inr ⟨goesOn, all⟩
    | some reason =>
        obtain ⟨f, _, rfl, first, _⟩ := scanned.ends reason ended
        exact Or.inl ⟨f, scanned.within, first, rfl⟩
  tokens := scanned.tokens
  finish := by
    refine fun reason => ⟨fun ended => ?_, fun ⟨f, _, inside, first, prevails⟩ => ?_⟩
    · obtain ⟨f, least, rfl, first, prevails⟩ := scanned.ends reason ended
      exact ⟨f, least, scanned.within, first, prevails⟩
    · cases ended : delta.finish with
      | none =>
          obtain ⟨rfl, goesOn⟩ := scanned.goesOn ended
          obtain ⟨⟨reason, holds⟩, _⟩ := first
          exact absurd holds (goesOn f inside reason)
      | some other =>
          obtain ⟨g, _, _, first', prevails'⟩ := scanned.ends other ended
          rw [first'.unique first] at prevails'
          rw [prevails'.unique prevails]
  later := fun f less ⟨⟨reason, holds⟩, _⟩ => absurd holds (before f less reason)
  rendered := by
    intro asked _
    have texts := scanned.logprobs
    rwa [asked] at texts
  unrendered := by
    intro without
    have texts := scanned.logprobs
    rwa [without] at texts

/-- After the end there is nothing to report. -/
theorem answers_none {f : Nat} (within : f < stream.length)
    (first : rules.EndsAt (stream.map Sample.token) f) :
    rules.Answers stream stream.length (f + 1) (f + 1) Delta.none where
  due := Or.inl ⟨f, within, first, rfl⟩
  tokens := by
    rw [List.drop_take, Nat.sub_self]
    rfl
  finish := by
    refine fun reason => ⟨fun ended => (by cases ended), fun ⟨g, least, _, other, _⟩ => ?_⟩
    rw [first.unique other] at least
    exact absurd least (Nat.not_succ_le_self g)
  later := fun _ _ _ => rfl
  rendered := by
    intro _ goesOn
    obtain ⟨⟨reason, holds⟩, _⟩ := first
    exact absurd holds (goesOn f (Nat.lt_succ_self f) reason)
  unrendered := fun _ => rfl

/-- What is committed later changes nothing about a report. -/
theorem Answers.append {more : List Sample}
    (answers : rules.Answers stream stream.length returned through delta)
    (within : returned ≤ stream.length) :
    rules.Answers (stream ++ more) stream.length returned through delta := by
  have there : ∀ {f}, f < stream.length → f < (stream.map Sample.token).length :=
    fun less => by rwa [List.length_map]
  have known : ∀ {f}, f < stream.length →
      (rules.EndsAt ((stream ++ more).map Sample.token) f ↔
        rules.EndsAt (stream.map Sample.token) f) := fun less => by
    rw [List.map_append]
    exact endsAt_append (there less)
  have open_iff : ∀ {i}, i ≤ stream.length →
      (rules.OpenBefore ((stream ++ more).map Sample.token) i ↔
        rules.OpenBefore (stream.map Sample.token) i) := fun le => by
    rw [List.map_append]
    exact openBefore_append (by rwa [List.length_map])
  have taken : (stream ++ more).take through = stream.take through := by
    refine List.take_append_of_le_length ?_
    rcases answers.due with ⟨f, less, _, rfl⟩ | ⟨_, rfl⟩
    · exact less
    · exact Nat.le_refl _
  refine ⟨?_, by rw [taken]; exact answers.tokens, fun reason => ?_, fun f less first => ?_,
    fun asked goesOn => ?_, answers.unrendered⟩
  · rcases answers.due with ⟨f, less, first, same⟩ | ⟨goesOn, same⟩
    · exact Or.inl ⟨f, less, (known less).mpr first, same⟩
    · exact Or.inr ⟨(open_iff (Nat.le_refl _)).mpr goesOn, same⟩
  · rw [answers.finish reason]
    refine exists_congr fun f => and_congr_right fun _ => and_congr_right fun less => ?_
    rw [known less, List.map_append, prevails_append (there less)]
  · exact answers.later f less ((known (Nat.lt_of_lt_of_le less within)).mp first)
  · rw [taken]
    exact answers.rendered asked ((open_iff within).mp goesOn)

end Answers

end Reporting

/-! ### A run of commits and reports -/

/-- What can happen to a request that is not given up. -/
inductive Occasion where
  /-- The primary replica commits a sample. -/
  | generated (sample : Sample)
  /-- A report is asked for, with logprobs or without. -/
  | asked (logprobs : Bool)
  deriving DecidableEq, Repr

namespace Occasion

/-- The samples committed on some occasions, in order. -/
def samples (occasions : List Occasion) : List Sample :=
  occasions.filterMap fun
    | .generated sample => some sample
    | .asked _ => none

/-- The number of reports asked for. -/
def reports (occasions : List Occasion) : Nat :=
  occasions.countP fun
    | .generated _ => false
    | .asked _ => true

end Occasion

namespace Ticket

/-- Takes a ticket through some occasions; gives all reports, oldest first, and the ticket after
them. -/
def follow (tokenizer : Tokenizer) (maxLength : Nat) :
    List Occasion → Ticket → Checked (List Delta × Ticket)
  | [], ticket => .ok ([], ticket)
  | .generated sample :: rest, ticket =>
    follow tokenizer maxLength rest (ticket.modifyLane 0 fun lane => lane.commit sample)
  | .asked logprobs :: rest, ticket => do
    let (delta, next) ← ticket.delta tokenizer maxLength logprobs
    let (deltas, last) ← follow tokenizer maxLength rest next
    .ok (delta :: deltas, last)

variable {tokenizer : Tokenizer} {maxLength : Nat} {ticket : Ticket} {request : Request}
  {samples : List Sample} {returned : Nat}

/-- The ticket of a request that is not given up, after the commit of some samples and the return of
a number of tokens. -/
structure Tracks (tokenizer : Tokenizer) (maxLength : Nat) (request : Request)
    (samples : List Sample) (returned : Nat) (ticket : Ticket) : Prop where
  request : ticket.request = request
  committed : ticket.primary.committed = samples
  reported : ticket.reported = returned
  within : returned ≤ samples.length
  wanted : ticket.abortRequested = false
  goesOn : ticket.finish = none →
    (ticket.reporting tokenizer maxLength false).OpenBefore (samples.map Sample.token) returned
  ended : ticket.finish ≠ none → ∃ f, returned = f + 1 ∧
    (ticket.reporting tokenizer maxLength false).EndsAt (samples.map Sample.token) f

/-- A request that has not begun. -/
theorem tracks_ofRequest (request : Request) (replicas : Nat) :
    (ofRequest request replicas).Tracks tokenizer maxLength request [] 0 where
  request := rfl
  committed := rfl
  reported := rfl
  within := Nat.le_refl 0
  wanted := rfl
  goesOn := fun _ j less => absurd less (Nat.not_lt_zero j)
  ended := fun finished => absurd rfl finished

namespace Tracks

/-- A commit to the primary lane. -/
theorem commit (tracks : ticket.Tracks tokenizer maxLength request samples returned)
    (sample : Sample) :
    (ticket.modifyLane 0 fun lane => lane.commit sample).Tracks tokenizer maxLength request
      (samples ++ [sample]) returned where
  request := tracks.request
  committed := congrArg (· ++ [sample]) tracks.committed
  reported := tracks.reported
  within := Nat.le_trans tracks.within (by simp)
  wanted := tracks.wanted
  goesOn := by
    intro unfinished
    rw [List.map_append]
    exact (Reporting.openBefore_append (by rw [List.length_map]; exact tracks.within)).mpr
      (tracks.goesOn unfinished)
  ended := by
    intro finished
    obtain ⟨f, rfl, first⟩ := tracks.ended finished
    refine ⟨f, rfl, ?_⟩
    rw [List.map_append]
    exact (Reporting.endsAt_append (by rw [List.length_map]; exact tracks.within)).mpr first

/-- **One report** answers by what was committed so far. -/
theorem delta_answers (tracks : ticket.Tracks tokenizer maxLength request samples returned)
    (legible : Reporting.Legible tokenizer request.settings.logprobs samples) (logprobs : Bool) :
    Yields (ticket.delta tokenizer maxLength logprobs)
      (fun result =>
        (∃ through, (ticket.reporting tokenizer maxLength logprobs).Answers samples samples.length
          returned through result.1) ∧
        result.2.Tracks tokenizer maxLength request samples
          (returned + result.1.tokens.length))
      (fun stop => stop = .fault .overflow ∧
        ∃ i, (ticket.reporting tokenizer maxLength logprobs).Overlong (samples.map Sample.token)
          i) := by
  rw [delta_eq, told]
  cases ended : ticket.finish with
  | some reason =>
      obtain ⟨f, rfl, first⟩ := tracks.ended (by rw [ended]; exact Option.some_ne_none reason)
      exact ⟨⟨f + 1, Reporting.answers_none tracks.within first⟩, tracks⟩
  | none =>
      have before := tracks.goesOn ended
      rw [tracks.wanted, if_neg (by decide), if_neg (by decide)]
      dsimp only
      have split : ticket.unreported = samples.drop returned := by
        rw [unreported, tracks.committed, tracks.reported]
      rw [split, tracks.committed, tracks.reported, yields_bind]
      have readable : Reporting.Legible tokenizer ticket.request.settings.logprobs samples := by
        rw [tracks.request]
        exact legible
      refine (Reporting.scan_yields_due (ticket.reporting tokenizer maxLength logprobs) readable _
        returned rfl tracks.within before).mono ?_ (fun _ large => large)
      rintro delta ⟨through, scanned⟩
      rw [yields_ok, scanned.length_tokens]
      refine ⟨⟨through, scanned.answers before⟩, ?_⟩
      exact {
        request := tracks.request
        committed := tracks.committed
        reported := rfl
        within := scanned.within
        wanted := rfl
        goesOn := fun goesOn => (scanned.goesOn goesOn).2
        ended := fun finished => by
          obtain ⟨reason, same⟩ := Option.ne_none_iff_exists'.mp finished
          obtain ⟨f, _, rfl, first, _⟩ := scanned.ends reason same
          exact ⟨f, rfl, first⟩ }

end Tracks

/-- A run that gets past a report, in three parts. -/
theorem follow_at {logprobs : Bool} {after : List Occasion} :
    ∀ (before : List Occasion) {ticket last : Ticket} {deltas : List Delta},
      ticket.follow tokenizer maxLength (before ++ .asked logprobs :: after) = .ok (deltas, last) →
      ∃ earlier middle delta next later,
        ticket.follow tokenizer maxLength before = .ok (earlier, middle) ∧
        middle.delta tokenizer maxLength logprobs = .ok (delta, next) ∧
        next.follow tokenizer maxLength after = .ok (later, last) ∧
        deltas = earlier ++ delta :: later
  | [], ticket, last, deltas, run => by
      rw [List.nil_append, follow] at run
      obtain ⟨⟨delta, next⟩, reported, run⟩ := bind_eq_ok_iff.mp run
      obtain ⟨⟨later, _⟩, followed, run⟩ := bind_eq_ok_iff.mp run
      cases run
      exact ⟨[], ticket, delta, next, later, rfl, reported, followed, rfl⟩
  | .generated _ :: before, _, _, _, run => follow_at before run
  | .asked other :: before, ticket, last, deltas, run => by
      rw [List.cons_append, follow] at run
      obtain ⟨⟨first, start⟩, reported, run⟩ := bind_eq_ok_iff.mp run
      obtain ⟨⟨deltas, _⟩, followed, run⟩ := bind_eq_ok_iff.mp run
      cases run
      obtain ⟨earlier, middle, delta, next, later, begun, here, rest, rfl⟩ :=
        follow_at before followed
      refine ⟨first :: earlier, middle, delta, next, later, ?_, here, rest, rfl⟩
      rw [follow, reported]
      show (start.follow tokenizer maxLength before >>= _) = _
      rw [begun]
      rfl

/-- **A run** of commits and reports keeps track; it stops only at a report that has to add up more
than 64 bits. -/
theorem Tracks.follow : ∀ (occasions : List Occasion) {ticket : Ticket} {samples : List Sample}
    {returned : Nat}, ticket.Tracks tokenizer maxLength request samples returned →
      Reporting.Legible tokenizer request.settings.logprobs
        (samples ++ Occasion.samples occasions) →
      Yields (ticket.follow tokenizer maxLength occasions)
        (fun result => result.1.length = Occasion.reports occasions ∧
          result.2.Tracks tokenizer maxLength request (samples ++ Occasion.samples occasions)
            (returned + (result.1.flatMap Delta.tokens).length))
        (fun stop => stop = .fault .overflow ∧
          ∃ before logprobs after, occasions = before ++ .asked logprobs :: after ∧
            ∃ i, (ticket.reporting tokenizer maxLength false).Overlong
              ((samples ++ Occasion.samples before).map Sample.token) i)
  | [], _, samples, _, tracks, _ => by
      refine ⟨rfl, ?_⟩
      rw [show samples ++ Occasion.samples [] = samples from List.append_nil _]
      exact tracks
  | .generated sample :: rest, ticket, samples, _, tracks, legible => by
      have split : ∀ later, samples ++ Occasion.samples (.generated sample :: later) =
          samples ++ [sample] ++ Occasion.samples later := fun later =>
        (List.append_assoc samples [sample] (Occasion.samples later)).symm
      rw [split] at legible ⊢
      refine ((tracks.commit sample).follow rest legible).mono (fun _ run => run) ?_
      rintro stop ⟨overflow, before, logprobs, after, rfl, large⟩
      refine ⟨overflow, .generated sample :: before, logprobs, after, rfl, ?_⟩
      rw [split]
      exact large
  | .asked logprobs :: rest, ticket, samples, returned, tracks, legible => by
      unfold Ticket.follow
      rw [yields_bind]
      refine (tracks.delta_answers legible.left logprobs).mono ?_ ?_
      · rintro ⟨delta, next⟩ ⟨_, tracks'⟩
        rw [yields_bind]
        have same : next.reporting tokenizer maxLength false =
            ticket.reporting tokenizer maxLength false := by
          rw [reporting, tracks'.request, ← tracks.request]
          rfl
        refine (tracks'.follow rest legible).mono ?_ ?_
        · rintro ⟨deltas, last⟩ ⟨length, run⟩
          refine ⟨?_, ?_⟩
          · rw [List.length_cons, length]
            exact (List.countP_cons_of_pos rfl).symm
          · rw [List.flatMap_cons, List.length_append, ← Nat.add_assoc]
            exact run
        · rintro stop ⟨overflow, before, other, after, rfl, large⟩
          rw [same] at large
          exact ⟨overflow, .asked logprobs :: before, other, after, rfl, large⟩
      · rintro stop ⟨overflow, large⟩
        refine ⟨overflow, [], logprobs, rest, rfl, ?_⟩
        rw [show samples ++ Occasion.samples [] = samples from List.append_nil _]
        exact large

/-- **Every report answers by the whole stream**, in whatever portions the tokens come in. A run
stops only at a report where the length rule decides about a token and has to add up more than 64
bits. -/
theorem reports_by_reference (request : Request) (replicas : Nat) (tokenizer : Tokenizer)
    (maxLength : Nat) (occasions : List Occasion)
    (legible : Reporting.Legible tokenizer request.settings.logprobs
      (Occasion.samples occasions)) :
    Yields ((ofRequest request replicas).follow tokenizer maxLength occasions)
      (fun result => result.1.length = Occasion.reports occasions ∧
        ∀ before logprobs after, occasions = before ++ .asked logprobs :: after →
          ∃ delta through, result.1[Occasion.reports before]? = some delta ∧
            ((ofRequest request replicas).reporting tokenizer maxLength logprobs).Answers
              (Occasion.samples occasions) (Occasion.samples before).length
              ((result.1.take (Occasion.reports before)).flatMap Delta.tokens).length
              through delta)
      (fun stop => stop = .fault .overflow ∧
        ∃ before logprobs after, occasions = before ++ .asked logprobs :: after ∧
          ∃ i, ((ofRequest request replicas).reporting tokenizer maxLength false).Overlong
            ((Occasion.samples before).map Sample.token) i) := by
  refine ((tracks_ofRequest request replicas).follow occasions legible).with_run.mono ?_
    (fun _ stopped => stopped)
  rintro ⟨deltas, last⟩ ⟨⟨length, _⟩, run⟩
  refine ⟨length, ?_⟩
  rintro before logprobs after rfl
  have parts : Occasion.samples (before ++ .asked logprobs :: after) =
      Occasion.samples before ++ Occasion.samples after := List.filterMap_append ..
  rw [parts] at legible ⊢
  obtain ⟨earlier, ticket, delta, next, later, begun, reported, _, rfl⟩ := follow_at before run
  obtain ⟨count, tracks⟩ := ((tracks_ofRequest request replicas).follow before
    (by rw [List.nil_append]; exact legible.left)).of_ok begun
  rw [List.nil_append, Nat.zero_add] at tracks
  have rules : ticket.reporting tokenizer maxLength logprobs =
      (ofRequest request replicas).reporting tokenizer maxLength logprobs := by
    rw [reporting, tracks.request]
    rfl
  obtain ⟨⟨through, answers⟩, _⟩ := (tracks.delta_answers legible.left logprobs).of_ok reported
  rw [rules] at answers
  refine ⟨delta, through, ?_, ?_⟩
  · rw [List.getElem?_append_right (Nat.le_of_eq count), count, Nat.sub_self]
    rfl
  · rw [List.take_append_of_le_length (Nat.le_of_eq count.symm), ← count, List.take_length]
    exact answers.append tracks.within

/-- Bytes can always be decoded and spelled out. -/
theorem legible_bytes (eos? : Option TokenId) (count : Nat) (stream : List Sample) :
    Reporting.Legible (.bytes eos?) count stream where
  decodes := fun _ => ⟨_, rfl⟩
  spells := by
    intro sample _
    exact Sample.exists_toJson_iff.mpr ⟨⟨_, rfl⟩, fun _ _ => ⟨_, rfl⟩⟩

/-- A request that is to stop at a text. -/
def stopping : Request :=
  ⟨"stopping", [.tokens [1, 2]], (GenerationSettings.usual.addStopText "lo w").withLogprobs 1⟩

/-- The stop text comes in three portions, and more tokens follow it. -/
def inPortions : List Occasion :=
  [104, 108].map letter ++ [.asked true] ++ [111, 32].map letter ++ [.asked true] ++
    [119, 33].map letter ++ [.asked true] ++ [34].map letter ++ [.asked true]
where
  /-- A sample without alternatives. -/
  letter (token : TokenId) : Occasion := .generated (.plain token .zero)

/-- The third report ends with the token that completes the stop text, and the fourth is empty. -/
theorem reports_by_reference_inPortions : ∃ deltas last,
    (ofRequest stopping 1).follow (.bytes (some usualEos)) 1024 inPortions = .ok (deltas, last) ∧
      deltas.map Delta.tokens = [[104, 108], [111, 32], [119], []] ∧
      deltas.map Delta.finish = [none, none, some .stop, none] ∧
      ∃ delta through, deltas[2]? = some delta ∧
        ((ofRequest stopping 1).reporting (.bytes (some usualEos)) 1024 true).Answers
          (Occasion.samples inPortions) 6 4 through delta := by
  have ran : ((ofRequest stopping 1).follow (.bytes (some usualEos)) 1024 inPortions).toOption.any
      (fun result =>
        decide (result.1.map Delta.tokens = [[104, 108], [111, 32], [119], []]) &&
        decide (result.1.map Delta.finish = [none, none, some .stop, none])) = true := by
    decide +kernel
  have answers := reports_by_reference stopping 1 (.bytes (some usualEos)) 1024 inPortions
    (legible_bytes _ _ _)
  cases run : (ofRequest stopping 1).follow (.bytes (some usualEos)) 1024 inPortions with
  | error stop =>
      rw [run] at ran
      cases ran
  | ok result =>
      obtain ⟨deltas, last⟩ := result
      rw [run] at ran answers
      obtain ⟨tokens, finish⟩ := (Bool.and_eq_true ..).mp ran
      have tokens := of_decide_eq_true tokens
      obtain ⟨delta, through, third, answer⟩ := answers.2
        (inPortions.take 8) true (inPortions.drop 9) rfl
      refine ⟨deltas, last, rfl, tokens, of_decide_eq_true finish, delta, through, third, ?_⟩
      have returned : ((deltas.take 2).flatMap Delta.tokens).length = 4 := by
        rw [List.flatMap_def, List.map_take, tokens]
        rfl
      rw [← returned]
      exact answer

/-- A request whose input takes as many positions as 64 bits can count. -/
def widest : Request := ⟨"widest", [.embedding "image" (Count.limit - 1)], .usual⟩

/-- **The length rule can overflow.** The first token of the widest request ends it by the length
rule, but the report has to add one to the length of the input. -/
theorem report_of_widest_overflows :
    Reporting.Legible (.bytes (some usualEos)) widest.settings.logprobs
        [.plain 97 .zero] ∧
      ((ofRequest widest 1).reporting (.bytes (some usualEos)) 1024 true).EndsAt [97] 0 ∧
      ((ofRequest widest 1).reporting (.bytes (some usualEos)) 1024 true).Prevails [97] 0
        .length ∧
      (ofRequest widest 1).follow (.bytes (some usualEos)) 1024
        [.generated (.plain 97 .zero), .asked true] = .error (.fault .overflow) := by
  have long : ((ofRequest widest 1).reporting (.bytes (some usualEos)) 1024 true).Holds [97] 0
      .length := ⟨Nat.one_pos, Or.inl (by decide)⟩
  refine ⟨legible_bytes _ _ _, ⟨⟨_, long⟩, fun j less => absurd less (Nat.not_lt_zero j)⟩,
    ⟨?_, ?_, long⟩, ?_⟩
  · rintro ⟨_, _, listed | ⟨_, _, _, part, _⟩⟩
    · cases listed
    · cases part
  · rintro ⟨_, token, there, eos⟩
    cases there
    exact absurd eos (by decide)
  · rfl

end Ticket

end ContinuousBatching
