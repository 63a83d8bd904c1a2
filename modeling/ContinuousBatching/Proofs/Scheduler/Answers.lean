/-
**What requests answer when they are asked to report.**

What a request reports depends on its own ticket only (`Cluster.answer`), and whoever has answered
has nothing to add. So a list of requests says what its members would say alone, whatever becomes of
the others:

* `recordsFor_spec`, `recordsFor_eq_nil_iff`: the record that a request leaves, if it leaves one;
* `report_hears`: a batch consists of the records that its members would leave alone, in the order
  in which the members are listed first, and it stops only where one of them alone would.
-/

import ContinuousBatching.Proofs.Repetitions
import ContinuousBatching.Proofs.Scheduler.Delivery

namespace ContinuousBatching

namespace Cluster

variable {c d e : Cluster} {caches : List PagedCache} {id : RequestId} {ids : List RequestId}
  {ticket next : Ticket} {delta : Delta} {tokenizer : Tokenizer} {maxLength : Nat}

/-! ### What one request says -/

/-- What a request reports when it is asked, and its ticket afterwards. -/
def answer (tokenizer : Tokenizer) (maxLength : Nat) (c : Cluster) (id : RequestId) :
    Checked (Delta × Ticket) := do
  (← c.scheduler.ticketOf id).report tokenizer maxLength

/-- The record of an answer, if it has content. -/
def recordOf (id : RequestId) : Checked (Delta × Ticket) → List StreamRecord
  | .ok (delta, next) =>
    if delta.isEmpty then [] else [.ofDelta id next.request.settings delta]
  | .error _ => []

/-- The record that a request leaves when it is asked, if it has anything to report. -/
def recordsFor (tokenizer : Tokenizer) (maxLength : Nat) (c : Cluster) (id : RequestId) :
    List StreamRecord :=
  recordOf id (c.answer tokenizer maxLength id)

/-- The records of a list of requests, in the order in which they are listed first. -/
def batchOf (tokenizer : Tokenizer) (maxLength : Nat) (c : Cluster) (ids : List RequestId) :
    List StreamRecord :=
  ids.eraseDups.flatMap (c.recordsFor tokenizer maxLength)

theorem answer_eq_ok : c.answer tokenizer maxLength id = .ok (delta, next) ↔
    ∃ ticket, c.scheduler.tickets.get? id = some ticket ∧
      ticket.report tokenizer maxLength = .ok (delta, next) := by
  unfold answer
  cases found : c.scheduler.tickets.get? id with
  | none =>
      rw [Scheduler.ticketOf_of_absent found]
      refine iff_of_false (fun run => ?_) fun known => ?_
      · cases run
      · obtain ⟨_, there, _⟩ := known
        cases there
  | some ticket =>
      rw [Scheduler.ticketOf_of_found found]
      constructor
      · exact fun run => ⟨ticket, rfl, run⟩
      · rintro ⟨_, same, run⟩
        cases same
        exact run

/-- An answer depends on the ticket only. -/
theorem answer_congr (same : d.scheduler.tickets.get? id = c.scheduler.tickets.get? id) :
    d.answer tokenizer maxLength id = c.answer tokenizer maxLength id := by
  unfold answer Scheduler.ticketOf
  rw [same]

theorem recordsFor_congr (same : d.scheduler.tickets.get? id = c.scheduler.tickets.get? id) :
    d.recordsFor tokenizer maxLength id = c.recordsFor tokenizer maxLength id := by
  rw [recordsFor, recordsFor, answer_congr same]

theorem recordsFor_of_answer (answered : c.answer tokenizer maxLength id = .ok (delta, next)) :
    c.recordsFor tokenizer maxLength id =
      if delta.isEmpty then [] else [.ofDelta id next.request.settings delta] := by
  rw [recordsFor, answered]
  rfl

/-- Whoever answered has nothing to add. -/
theorem answer_again (answered : c.answer tokenizer maxLength id = .ok (delta, next))
    (now : d.scheduler.tickets.get? id = some next) :
    ∃ more, d.answer tokenizer maxLength id = .ok (more, next) ∧
      d.recordsFor tokenizer maxLength id = [] := by
  obtain ⟨ticket, _, report⟩ := answer_eq_ok.mp answered
  have reports := (Ticket.reports_of_report ticket tokenizer maxLength).of_ok report
  obtain ⟨more, again, empty⟩ := reports.report_again maxLength
  have answered' := answer_eq_ok.mpr ⟨next, now, again⟩
  refine ⟨more, answered', ?_⟩
  rw [recordsFor_of_answer answered', if_pos empty]

/-- A request leaves one record at most, and that is its own. -/
theorem recordsFor_spec (tokenizer : Tokenizer) (maxLength : Nat) (c : Cluster) (id : RequestId) :
    c.recordsFor tokenizer maxLength id = [] ∨
      ∃ r, c.recordsFor tokenizer maxLength id = [r] ∧ r.request = id := by
  unfold recordsFor recordOf
  split
  · split
    · exact Or.inl rfl
    · exact Or.inr ⟨_, rfl, rfl⟩
  · exact Or.inl rfl

/-- Where a record comes from. -/
theorem mem_batchOf {r : StreamRecord} (member : r ∈ c.batchOf tokenizer maxLength ids) :
    r.request ∈ ids ∧ ∃ delta next, c.answer tokenizer maxLength r.request = .ok (delta, next) ∧
      r = .ofDelta r.request next.request.settings delta := by
  obtain ⟨id, listed, member⟩ := List.mem_flatMap.mp member
  rw [List.mem_eraseDups] at listed
  cases answered : c.answer tokenizer maxLength id with
  | error stop =>
      rw [recordsFor, answered] at member
      cases member
  | ok result =>
      obtain ⟨delta, next⟩ := result
      rw [recordsFor_of_answer answered] at member
      split at member
      · cases member
      · obtain rfl := List.mem_singleton.mp member
        exact ⟨listed, delta, next, answered, rfl⟩

/-- Where everybody in a list leaves a record, the records are theirs, one by one. -/
theorem map_request_batchOf (nodup : ids.Nodup)
    (speaks : ∀ id ∈ ids, c.recordsFor tokenizer maxLength id ≠ []) :
    (c.batchOf tokenizer maxLength ids).map StreamRecord.request = ids := by
  rw [batchOf, eraseDups_of_nodup nodup]
  clear nodup
  induction ids with
  | nil => rfl
  | cons id rest ih =>
      have later := ih fun other member => speaks other (List.mem_cons_of_mem _ member)
      rw [List.flatMap_cons, List.map_append, later]
      rcases recordsFor_spec tokenizer maxLength c id with none | ⟨r, single, own⟩
      · exact absurd none (speaks id List.mem_cons_self)
      · rw [single, List.map_singleton, own]
        rfl

/-- Whoever has nothing to report leaves no record: a request that ended before, or one that was not
given up and has no token that it did not report. -/
theorem recordsFor_eq_nil_iff (answered : c.answer tokenizer maxLength id = .ok (delta, next))
    (found : c.scheduler.tickets.get? id = some ticket) :
    c.recordsFor tokenizer maxLength id = [] ↔
      ticket.finish ≠ none ∨ (ticket.abortRequested = false ∧ ticket.unreported = []) := by
  obtain ⟨ticket', there, report⟩ := answer_eq_ok.mp answered
  cases found.symm.trans there
  have reports := (Ticket.reports_of_report ticket tokenizer maxLength).of_ok report
  rw [← reports.isEmpty_iff, recordsFor_of_answer answered]
  by_cases empty : delta.isEmpty = true <;> simp [empty]

/-! ### What a list of requests says -/

/-- These requests have reported, each of them what it would have reported alone, and nothing else
has changed. -/
structure Heard (tokenizer : Tokenizer) (maxLength : Nat) (c : Cluster) (ids : List RequestId)
    (batch : List StreamRecord) (d : Cluster) : Prop where
  own : ∀ id ∈ ids, ∃ delta next, c.answer tokenizer maxLength id = .ok (delta, next) ∧
    d.scheduler.tickets.get? id = some next
  others : ∀ id ∉ ids, d.scheduler.tickets.get? id = c.scheduler.tickets.get? id
  batch : batch = c.batchOf tokenizer maxLength ids
  same : d = { c with scheduler := { c.scheduler with tickets := d.scheduler.tickets } }

/-- The cluster once the ticket of a request was replaced. -/
def noted (c : Cluster) (id : RequestId) (ticket : Ticket) : Cluster :=
  { c with scheduler := { c.scheduler with tickets := c.scheduler.tickets.insert id ticket } }

theorem get?_noted (other : RequestId) : (c.noted id ticket).scheduler.tickets.get? other =
    if other = id then some ticket else c.scheduler.tickets.get? other :=
  Registry.get?_insert ..

/-- **One answer more**, before the others. -/
theorem Heard.cons {rest : List RequestId} {later : List StreamRecord}
    (answered : c.answer tokenizer maxLength id = .ok (delta, next))
    (heard : Heard tokenizer maxLength (c.noted id next) rest later d) :
    Heard tokenizer maxLength c (id :: rest) (recordOf id (.ok (delta, next)) ++ later) d := by
  have now : (c.noted id next).scheduler.tickets.get? id = some next := by
    rw [get?_noted, if_pos rfl]
  have before : ∀ other, other ≠ id → (c.noted id next).scheduler.tickets.get? other =
      c.scheduler.tickets.get? other := fun other differ => by
    rw [get?_noted, if_neg differ]
  obtain ⟨more, again, silent⟩ := answer_again answered now
  refine ⟨fun other member => ?_, fun other absent => ?_, ?_, ?_⟩
  · by_cases same : other = id
    · subst same
      refine ⟨delta, next, answered, ?_⟩
      by_cases listed : other ∈ rest
      · obtain ⟨_, newer, second, there⟩ := heard.own other listed
        cases again.symm.trans second
        exact there
      · exact (heard.others other listed).trans now
    · obtain ⟨delta', next', own, there⟩ :=
        heard.own other ((List.mem_cons.mp member).resolve_left same)
      rw [answer_congr (before other same)] at own
      exact ⟨delta', next', own, there⟩
  · rw [List.mem_cons, not_or] at absent
    rw [heard.others other absent.2, before other absent.1]
  · have others : (rest.eraseDups.filter fun other => !other == id).flatMap
          ((c.noted id next).recordsFor tokenizer maxLength) =
        (rest.eraseDups.filter fun other => !other == id).flatMap
          (c.recordsFor tokenizer maxLength) := by
      refine List.flatMap_congr fun other member => recordsFor_congr (before other ?_)
      simpa using (List.mem_filter.mp member).2
    rw [batchOf, List.eraseDups_cons, eraseDups_filter, List.flatMap_cons, ← others,
      flatMap_filter_ne silent, recordsFor, answered, heard.batch, batchOf]
  · rw [heard.same]
    rfl

/-- **The reports of a list of requests.** They stop only where one of the requests alone would. -/
theorem report_hears : ∀ (ids : List RequestId) (c : Cluster),
    Meets (report tokenizer maxLength ids) c
      (fun batch d => Heard tokenizer maxLength c ids batch d)
      (fun stop _ => ∃ id ∈ ids, c.answer tokenizer maxLength id = .error stop)
  | [], c => by
      refine ⟨fun _ member => ?_, fun _ _ => rfl, rfl, rfl⟩
      cases member
  | id :: rest, c => by
      have asked : ∀ ticket, c.scheduler.tickets.get? id = some ticket →
          c.answer tokenizer maxLength id = ticket.report tokenizer maxLength := by
        intro ticket found
        rw [answer, Scheduler.ticketOf_of_found found]
        rfl
      refine report_rule (fun absent => ⟨id, List.mem_cons_self, ?_⟩)
        (fun ticket stop found failed =>
          ⟨id, List.mem_cons_self, (asked ticket found).trans failed⟩)
        fun ticket delta next found report => ?_
      · rw [answer, Scheduler.ticketOf_of_absent absent]
        rfl
      have answered := (asked ticket found).trans report
      have now : (c.noted id next).scheduler.tickets.get? id = some next := by
        rw [get?_noted, if_pos rfl]
      have settings : next.request.settings = ticket.request.settings :=
        congrArg Request.settings ((Ticket.report_yields ..).of_ok report).request
      refine (report_hears rest (c.noted id next)).mono ?_ ?_
      · intro later d heard
        have all := heard.cons answered
        rw [recordOf, settings] at all
        by_cases empty : delta.isEmpty = true
        · rw [if_pos empty] at all ⊢
          exact all
        · rw [if_neg empty] at all ⊢
          exact all
      · rintro stop _ ⟨other, member, stopped⟩
        refine ⟨other, List.mem_cons_of_mem _ member, ?_⟩
        by_cases same : other = id
        · subst same
          obtain ⟨more, again, _⟩ := answer_again answered now
          cases again.symm.trans stopped
        · have before : (c.noted id next).scheduler.tickets.get? other =
              c.scheduler.tickets.get? other := (get?_noted other).trans (if_neg same)
          exact (answer_congr before).symm.trans stopped

namespace Heard

variable {batch : List StreamRecord}

/-- Nothing of a ticket changes but how far it was reported and how it ended. -/
theorem reported (heard : Heard tokenizer maxLength c ids batch d) (id : RequestId) :
    Option.Rel Ticket.Reported (c.scheduler.tickets.get? id) (d.scheduler.tickets.get? id) := by
  by_cases member : id ∈ ids
  · obtain ⟨delta, next, answered, now⟩ := heard.own id member
    obtain ⟨ticket, found, report⟩ := answer_eq_ok.mp answered
    rw [found, now]
    exact .some ((Ticket.report_yields ..).of_ok report)
  · rw [heard.others id member]
    cases c.scheduler.tickets.get? id with
    | none => exact .none
    | some ticket => exact .some ⟨rfl, rfl, rfl⟩

/-- What is measured of a ticket apart from that stays the same. -/
theorem map_get? {α : Type} (heard : Heard tokenizer maxLength c ids batch d) {f : Ticket → α}
    (same : ∀ ticket next, ticket.Reported next → f next = f ticket) (id : RequestId) :
    (d.scheduler.tickets.get? id).map f = (c.scheduler.tickets.get? id).map f := by
  have reported := heard.reported id
  generalize c.scheduler.tickets.get? id = before at reported ⊢
  generalize d.scheduler.tickets.get? id = now at reported ⊢
  cases reported with
  | none => rfl
  | some reported => rw [Option.map_some, Option.map_some, same _ _ reported]

/-- A request keeps its sequence. -/
theorem sequenceOf?_eq (heard : Heard tokenizer maxLength c ids batch d) :
    d.scheduler.sequenceOf? = c.scheduler.sequenceOf? := by
  funext id
  have reported := heard.reported id
  unfold Scheduler.sequenceOf?
  generalize c.scheduler.tickets.get? id = before at reported ⊢
  generalize d.scheduler.tickets.get? id = now at reported ⊢
  cases reported with
  | none => rfl
  | some reported => rw [Option.bind_some, Option.bind_some, reported.primary]

end Heard

end Cluster

end ContinuousBatching
