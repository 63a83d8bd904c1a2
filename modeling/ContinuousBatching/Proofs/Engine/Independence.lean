/-
**The order of calls does not matter to a request.**

Requests are admitted, batched, preempted and admitted again depending on what else is asked of the
engine. Nothing of that shows in what a request is told: a prefix of the stream that the first model
generates for it alone, and if nobody gives it up, this stream up to the first token that ends it
(`Concludes`), with the reason that the rules give for these tokens.

* `Served`: what a request was told, and what is known about it, along any calls;
* `Served.step`, `Engine.served_of_serve`: a call keeps this, and so do all calls in a row;
* `Concludes.unique`: the stream of a request has one end only;
* `Engine.told_own_stream`: **schedule independence**.
-/

import ContinuousBatching.Proofs.Engine.Calls

namespace ContinuousBatching

/-- The stream of a request ends after so many tokens, for this reason: its last token is the first
one that ends it, or the next one is the first that cannot be judged. -/
inductive Concludes (p : Premises) (request : Request) : Nat → FinishReason → Prop
  | ended {n : Nat} {reason : FinishReason} (earlier : ∀ m < n, p.judgement request m = .ok none)
      (now : p.judgement request n = .ok (some reason)) : Concludes p request n reason
  | broken {n : Nat} {cause : Failure} (earlier : ∀ m ≤ n, p.judgement request m = .ok none)
      (now : p.judgement request (n + 1) = .error (.refused cause)) : Concludes p request n .abort

/-- Where the judgement first says something else than that the request goes on. -/
theorem Concludes.first {p : Premises} {request : Request} {n : Nat} {reason : FinishReason}
    (concludes : Concludes p request n reason) :
    ∃ end_, p.judgement request end_ ≠ .ok none ∧
      (∀ m < end_, p.judgement request m = .ok none) ∧
      ((end_ = n ∧ p.judgement request end_ = .ok (some reason)) ∨
        (end_ = n + 1 ∧ reason = .abort ∧
          ∃ cause, p.judgement request end_ = .error (.refused cause))) := by
  cases concludes with
  | ended earlier now =>
      refine ⟨n, fun goesOn => ?_, earlier, Or.inl ⟨rfl, now⟩⟩
      rw [now] at goesOn
      cases goesOn
  | broken earlier now =>
      refine ⟨n + 1, fun goesOn => ?_, fun m less => earlier m (Nat.le_of_lt_succ less),
        Or.inr ⟨rfl, rfl, _, now⟩⟩
      rw [now] at goesOn
      cases goesOn

/-- **One end only.** -/
theorem Concludes.unique {p : Premises} {request : Request} {n m : Nat}
    {reason other : FinishReason} (first : Concludes p request n reason)
    (second : Concludes p request m other) : n = m ∧ reason = other := by
  obtain ⟨i, ends, before, here⟩ := first.first
  obtain ⟨j, ends', before', here'⟩ := second.first
  have same : i = j := by
    rcases Nat.lt_trichotomy i j with less | same | more
    · exact absurd (before' i less) ends
    · exact same
    · exact absurd (before j more) ends'
  subst same
  rcases here with ⟨rfl, now⟩ | ⟨end_, rfl, cause, now⟩
  · rcases here' with ⟨rfl, now'⟩ | ⟨_, _, cause, now'⟩
    · rw [now] at now'
      cases now'
      exact ⟨rfl, rfl⟩
    · rw [now] at now'
      cases now'
  · rcases here' with ⟨rfl, now'⟩ | ⟨end', rfl, _⟩
    · rw [now] at now'
      cases now'
    · exact ⟨Nat.succ.inj (end_.symm.trans end'), rfl⟩

/-- What a request was told since it was submitted, together with what is known about it. -/
inductive Served (p : Premises) (request : Request) (aborted : Prop)
    (told : List (List TokenId × Option FinishReason)) : Option Terms → Prop
  /-- It goes on: it was told its stream so far. -/
  | going {terms : Terms} (same : terms.request = request)
      (marked : terms.abortRequested = true → aborted)
      (judged : ∀ m ≤ terms.reported, p.judgement request m = .ok none)
      (tokens : told.flatMap Prod.fst = p.stream request terms.reported)
      (unfinished : told.filterMap Prod.snd = []) : Served p request aborted told (some terms)
  /-- It is over: it was told its stream up to some point, which is its end unless it was given
  up. -/
  | ended {n : Nat} (tokens : told.flatMap Prod.fst = p.stream request n)
      (concluded : ¬ aborted →
        ∃ reason, told.filterMap Prod.snd = [reason] ∧ Concludes p request n reason) :
      Served p request aborted told none

namespace Served

variable {p : Premises} {request : Request} {id : RequestId} {aborted : Prop}
  {told more : List (List TokenId × Option FinishReason)} {known known' : Option Terms}

theorem mono {aborted' : Prop} (served : Served p request aborted told known)
    (weaker : aborted → aborted') : Served p request aborted' told known := by
  cases served with
  | going same marked judged tokens unfinished =>
      exact .going same (fun given => weaker (marked given)) judged tokens unfinished
  | ended tokens concluded =>
      exact .ended tokens fun wanted => concluded fun given => wanted (weaker given)

/-- What a step tells a request. -/
theorem tells {terms : Terms} (served : Served p request aborted told (some terms))
    (now : Told p terms more known') : Served p request aborted (told ++ more) known' := by
  cases served with
  | going same marked judged tokens unfinished =>
      subst same
      cases now with
      | nothing =>
          rw [List.append_nil]
          exact .going rfl marked judged tokens unfinished
      | next wanted stream ends =>
          refine .going rfl marked (fun m le => ?_) ?_ ?_
          · rcases Nat.lt_or_eq_of_le le with less | rfl
            · exact judged m (Nat.le_of_lt_succ less)
            · exact ends
          · rw [List.flatMap_append, tokens, stream]
            rfl
          · rw [List.filterMap_append, unfinished]
            rfl
      | last wanted stream ends =>
          refine .ended ?_ fun _ => ⟨_, ?_, .ended (fun m less => ?_) ends⟩
          · rw [List.flatMap_append, tokens, stream]
            rfl
          · rw [List.filterMap_append, unfinished]
            rfl
          · exact judged m (Nat.le_of_lt_succ less)
      | broken wanted ends =>
          refine .ended ?_ fun _ => ⟨_, ?_, .broken judged ends⟩
          · rw [List.flatMap_append, tokens]
            exact List.append_nil _
          · rw [List.filterMap_append, unfinished]
            rfl
      | givenUp given =>
          have kept : (told ++ [([], some FinishReason.abort)]).flatMap Prod.fst =
              p.stream terms.request terms.reported := by
            rw [List.flatMap_append, tokens]
            exact List.append_nil _
          exact .ended kept fun wanted => absurd (marked given) wanted

/-- **One call.** -/
theorem step {call : Call} {answer : Answer} (served : Served p request aborted told known)
    (effect : Call.Effect p id call answer known more known') (other : answer ≠ .named id) :
    Served p request (aborted ∨ call = .abort id) (told ++ more) known' := by
  cases effect with
  | nothing =>
      rw [List.append_nil]
      exact served.mono Or.inl
  | submitted => exact absurd rfl other
  | marked =>
      rw [List.append_nil]
      cases served with
      | going same _ judged tokens unfinished =>
          exact .going same (fun _ => Or.inr rfl) judged tokens unfinished
  | dropped =>
      rw [List.append_nil]
      cases served with
      | going _ _ _ tokens _ => exact .ended tokens fun wanted => absurd (Or.inr rfl) wanted
  | told now => exact (served.tells now).mono Or.inl

end Served

/-- What is known about a request that was just submitted. -/
theorem Call.Effect.of_submitted {p : Premises} {id : RequestId} {submission : Submission}
    {known known' : Option Terms} {told : List (List TokenId × Option FinishReason)}
    (effect : Call.Effect p id (.submit submission) (.named id) known told known') :
    known' = some ⟨⟨id, submission.inputs, submission.settings⟩, 0, none, false⟩ := by
  cases effect with
  | nothing other => exact absurd rfl other
  | submitted => rfl

theorem toldOf_append (id : RequestId) (first second : List StreamRecord) :
    toldOf id (first ++ second) = toldOf id first ++ toldOf id second := by
  rw [toldOf, List.filter_append, List.map_append]
  rfl

namespace Engine

variable {p : Premises} {before engine after : Engine} {id : RequestId} {request : Request}

/-- What was delivered between two moments of a run. -/
def deliveredSince (engine after : Engine) : List StreamRecord :=
  (after.cluster.delivered.drop engine.cluster.delivered.length).flatten

/-- **All calls in a row**, none of which submits a request of this name. -/
theorem served_of_serve (rests : engine.Rests p) {calls : List Call} {answers : List Answer}
    (served : engine.serve calls = some (answers, after)) (once : .named id ∉ answers)
    {aborted : Prop} {told : List (List TokenId × Option FinishReason)}
    (soFar : Served p request aborted told (engine.cluster.terms? id)) :
    ∃ batches, after.cluster.delivered = engine.cluster.delivered ++ batches ∧
      Served p request (aborted ∨ .abort id ∈ calls) (told ++ toldOf id batches.flatten)
        (after.cluster.terms? id) := by
  induction calls generalizing engine answers aborted told with
  | nil =>
      cases served
      refine ⟨[], (List.append_nil _).symm, ?_⟩
      rw [List.flatten_nil, toldOf_nil, List.append_nil]
      exact soFar.mono Or.inl
  | cons call rest ih =>
      obtain ⟨first, middle, later, answered, onwards, rfl⟩ := serve_cons.mp served
      obtain ⟨rests', records, delivered, effects⟩ := rests.answered answered
      obtain ⟨other, once⟩ := not_or.mp (List.mem_cons.not.mp once)
      obtain ⟨batches, delivered', served⟩ :=
        ih rests' onwards once (soFar.step (effects id) (Ne.symm other))
      refine ⟨records ++ batches, ?_, ?_⟩
      · rw [delivered', delivered, List.append_assoc]
      · rw [List.flatten_append, toldOf_append, ← List.append_assoc]
        refine served.mono ?_
        rintro ((given | rfl) | member)
        · exact Or.inl given
        · exact Or.inr List.mem_cons_self
        · exact Or.inr (List.mem_cons_of_mem call member)

/-- Every request has a lane for each model, with as many tokens of its own stream as were
reported. -/
theorem Rests.committed (rests : engine.Rests p) {ticket : Ticket}
    (found : engine.cluster.scheduler.tickets.get? id = some ticket) :
    ticket.lanes.length = p.models.length ∧
      ∀ place lane model, ticket.lane? place = some lane → p.models[place]? = some model →
        lane.committed =
          solo model.nextToken (tokenIds ticket.request.inputs) ticket.reported := by
  obtain ⟨caches, rest⟩ := rests.rest
  have stands := rest.live.stands id ticket found
  refine ⟨stands.laned, fun place lane model lane_at model_at => ?_⟩
  rw [← (rest.settled id ticket found).level lane (Ticket.lane_mem lane_at)]
  exact (stands.alone place lane model lane_at model_at).committed

/-- **Schedule independence.** A request is submitted to an engine that any calls led to, and any
calls follow, none of which submits a request of the same name. Then the request was told as many
tokens of its own stream as its lanes have, each lane those of its own model; and if it is gone
without having been given up, it was told its stream up to its end and the reason for which it
ended. -/
theorem told_own_stream {submission : Submission} {calls : List Call} {answers : List Answer}
    (reached : before.Reached p)
    (submitted : before.answer (.submit submission) = some (.named id, engine))
    (served : engine.serve calls = some (answers, after)) (once : .named id ∉ answers) :
    (∀ other ticket, after.cluster.scheduler.tickets.get? other = some ticket →
      ticket.lanes.length = p.models.length ∧
      ∀ place lane model, ticket.lane? place = some lane → p.models[place]? = some model →
        lane.committed =
          solo model.nextToken (tokenIds ticket.request.inputs) ticket.reported) ∧
    ∃ n, (toldOf id (engine.deliveredSince after)).flatMap Prod.fst =
        p.stream ⟨id, submission.inputs, submission.settings⟩ n ∧
      (∀ ticket, after.cluster.scheduler.tickets.get? id = some ticket →
        ticket.request = ⟨id, submission.inputs, submission.settings⟩ ∧ ticket.reported = n ∧
          (toldOf id (engine.deliveredSince after)).filterMap Prod.snd = []) ∧
      (after.cluster.scheduler.tickets.get? id = none → .abort id ∉ calls →
        ∃ reason, (toldOf id (engine.deliveredSince after)).filterMap Prod.snd = [reason] ∧
          Concludes p ⟨id, submission.inputs, submission.settings⟩ n reason) := by
  obtain ⟨rests, _, _, effects⟩ := reached.rests.answered submitted
  have fresh : engine.cluster.terms? id =
      some ⟨⟨id, submission.inputs, submission.settings⟩, 0, none, false⟩ :=
    (effects id).of_submitted
  have soFar : Served p ⟨id, submission.inputs, submission.settings⟩ False []
      (engine.cluster.terms? id) := by
    rw [fresh]
    refine .going rfl (fun given => by cases given) (fun m le => ?_) rfl rfl
    rw [Nat.le_zero.mp le]
    rfl
  obtain ⟨batches, delivered, now⟩ := served_of_serve rests served once soFar
  have since : engine.deliveredSince after = batches.flatten := by
    rw [deliveredSince, delivered, List.drop_left]
  rw [List.nil_append, ← since] at now
  refine ⟨fun _ _ found => (rests.served served).committed found, ?_⟩
  cases known : after.cluster.scheduler.tickets.get? id with
  | none =>
      rw [Cluster.terms?, known] at now
      cases now with
      | ended tokens concluded =>
          refine ⟨_, tokens, fun ticket found => (by cases found), fun _ wanted => ?_⟩
          exact concluded (not_or.mpr ⟨not_false, wanted⟩)
  | some ticket =>
      rw [Cluster.terms?_of_found known] at now
      cases now with
      | going same _ _ tokens unfinished =>
          refine ⟨_, tokens, fun other found => ?_, fun gone => by cases gone⟩
          cases found
          exact ⟨same, rfl, unfinished⟩

/-- The second request is preempted, admitted again when the first one has ended, and told its
stream all the same. -/
theorem told_own_stream_tiny : ∃ (before engine after : Engine) (answers : List Answer),
    before.Reached tinyPremises ∧
      before.answer (.submit (tinySubmission "b")) = some (.named "b", engine) ∧
      engine.serve (List.replicate 19 .step) = some (answers, after) ∧ .named "b" ∉ answers ∧
      (∃ report, .stepped report ∈ answers ∧ "b" ∈ report.preempted) ∧
      after.cluster.scheduler.tickets.get? "b" = none ∧
      ∃ n reason, (toldOf "b" (engine.deliveredSince after)).flatMap Prod.fst =
          tinyPremises.stream ⟨"b", [.tokens [1, 2, 3, 4]], (tinySubmission "b").settings⟩ n ∧
        (toldOf "b" (engine.deliveredSince after)).filterMap Prod.snd = [reason] ∧
        Concludes tinyPremises ⟨"b", [.tokens [1, 2, 3, 4]], (tinySubmission "b").settings⟩ n
          reason := by
  have ended : (tinyEngine.serve (.submit (tinySubmission "a") :: .submit (tinySubmission "b") ::
      List.replicate 19 .step)).any (fun ending =>
        decide (ending.1[1]? = some (.named "b")) && decide (.named "b" ∉ ending.1.drop 2) &&
        decide (.stepped ⟨.decode, ["a"], ["b"], []⟩ ∈ ending.1.drop 2) &&
        decide ((ending.2.cluster.terms? "b") = none)) = true := by
    decide +kernel
  cases served : tinyEngine.serve (.submit (tinySubmission "a") ::
      .submit (tinySubmission "b") :: List.replicate 19 .step) with
  | none =>
      rw [served] at ended
      cases ended
  | some ending =>
      obtain ⟨_, after⟩ := ending
      obtain ⟨first, before, _, answered, onwards, rfl⟩ := serve_cons.mp served
      obtain ⟨second, engine, answers, submitted, later, rfl⟩ := serve_cons.mp onwards
      rw [served] at ended
      simp only [Option.any_some, Bool.and_eq_true, decide_eq_true_eq, List.getElem?_cons_succ,
        List.getElem?_cons_zero, Option.some.injEq, List.drop_succ_cons, List.drop_zero] at ended
      obtain ⟨⟨⟨rfl, once⟩, preempted⟩, gone⟩ := ended
      have reached : before.Reached tinyPremises := ⟨tinyEngine, [.submit (tinySubmission "a")],
        [first], starts_tinyEngine, serve_cons.mpr ⟨first, before, [], answered, rfl, rfl⟩⟩
      have gone : after.cluster.scheduler.tickets.get? "b" = none := Option.map_eq_none_iff.mp gone
      obtain ⟨_, n, tokens, _, ending⟩ := told_own_stream reached submitted later once
      obtain ⟨reason, finished, concludes⟩ := ending gone (by decide)
      exact ⟨before, engine, after, answers, reached, submitted, later, once,
        ⟨_, preempted, List.mem_cons_self⟩, gone, n, reason, tokens, finished, concludes⟩

end Engine

end ContinuousBatching
