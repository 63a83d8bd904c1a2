/-
**The order of arrival.**

The requests that nobody gave up stand in the line in the order in which they arrived, whatever is
asked of the scheduler and whatever its replicas do. Being preempted costs a request nothing but
time: it waits at the front again, before everybody who came later.

* `Scheduler.Follows.ordered`: what joins at the end of a line arrived last;
* `Operation.quiet`, `process_spares`, `add_follows`: an operation lets at most the request join
  that it submits;
* `Cluster.line_after`: the line after any history is in the order of arrival.
-/

import ContinuousBatching.Proofs.Request.Stream
import ContinuousBatching.Proofs.Scheduler.Histories
import ContinuousBatching.Proofs.Scheduler.LineMoves
import Mathlib.Data.List.Dedup

namespace ContinuousBatching

/-- Of the arrivals of one id the latest one counts. -/
theorem dedup_concat {α : Type} [DecidableEq α] (log : List α) (a : α) :
    (log ++ [a]).dedup = (log.dedup.filter fun b => b ≠ a) ++ [a] := by
  induction log with
  | nil => simp
  | cons b log ih =>
      by_cases again : b ∈ log
      · rw [List.cons_append, List.dedup_cons_of_mem (List.mem_append_left _ again), ih,
          List.dedup_cons_of_mem again]
      · by_cases same : b = a
        · subst same
          rw [List.cons_append, List.dedup_cons_of_mem (by simp), ih,
            List.dedup_cons_of_notMem again, List.filter_cons_of_neg (by simp)]
        · have fresh : b ∉ log ++ [a] := by simp [again, same]
          rw [List.cons_append, List.dedup_cons_of_notMem fresh, ih,
            List.dedup_cons_of_notMem again, List.filter_cons_of_pos (by simpa using same),
            List.cons_append]

namespace Scheduler

variable {s t : Scheduler} {id : RequestId}

/-- Requests may have moved along the line or left it, and at most one new request joined it. -/
structure Follows (s : Scheduler) (newcomer? : Option RequestId) (t : Scheduler) : Prop where
  tidy : t.Tidy
  line : t.line.Sublist (s.line ++ newcomer?.toList)
  fresh : ∀ id ∈ newcomer?, id ∉ s.line
  known : ∀ id ∈ t.tickets.keys, id ∈ s.tickets.keys ∨ newcomer? = some id
  lanes : t.laneCount = s.laneCount

theorem Orderly.follows (orderly : s.Orderly t) : s.Follows none t where
  tidy := orderly.tidy
  line := (List.append_nil s.line).symm ▸ orderly.line
  fresh := fun _ member => by cases member
  known := fun _ known => Or.inl (orderly.known known)
  lanes := orderly.lanes

/-- **What joins at the end of the line arrived last.** -/
theorem Follows.ordered {newcomer? : Option RequestId} (follows : s.Follows newcomer? t)
    {log : List RequestId} (ordered : s.line.Sublist log.dedup) :
    t.line.Sublist (log ++ newcomer?.toList).dedup := by
  refine follows.line.trans ?_
  cases newcomer? with
  | none => rwa [Option.toList_none, List.append_nil, List.append_nil]
  | some id =>
      have others : s.line.filter (fun other => other ≠ id) = s.line := by
        refine List.filter_eq_self.mpr fun other member => ?_
        have differ : other ≠ id := fun same => follows.fresh id rfl (same ▸ member)
        simpa using differ
      rw [Option.toList_some, dedup_concat, ← others]
      exact (ordered.filter _).append_right _

theorem line_nodup (tidy : s.Tidy) : s.line.Nodup := tidy.nodup.filter _

end Scheduler

namespace Cluster

variable {c d e : Cluster} {first? : Option RequestId}

/-! ### Reports -/

/-- Requests may have moved along the line or left it, and one of them was not sent back. -/
structure Spares (first? : Option RequestId) (c d : Cluster) : Prop where
  orderly : c.scheduler.Orderly d.scheduler
  kept : ∀ id ∈ first?, id ∉ c.scheduler.waiting → id ∉ d.scheduler.waiting

namespace Spares

theorem trans (first : Spares first? c d) (second : Spares first? d e) : Spares first? c e where
  orderly := first.orderly.trans second.orderly
  kept := fun id member runs => second.kept id member (first.kept id member runs)

theorem of_forward (forward : c.Forward d) : Spares first? c d where
  orderly := forward.scheduler.toOrderly
  kept := fun _ _ runs waits => runs (forward.scheduler.waits waits)

theorem refl (tidy : c.scheduler.Tidy) : Spares first? c c := .of_forward (.refl tidy)

theorem tidy (spares : Spares first? c d) : d.scheduler.Tidy := spares.orderly.tidy

end Spares

/-- Reports may give requests up, which leave the line where they stand. -/
theorem report_spares {tokenizer : Tokenizer} {maxLength : Nat} : ∀ (ids : List RequestId)
    (c : Cluster), c.scheduler.Tidy → Leads (Spares first?) (report tokenizer maxLength ids) c
  | [], _, tidy => .refl tidy
  | id :: rest, c, tidy => by
      refine report_rule (fun _ => .refl tidy) (fun _ _ _ _ => .refl tidy)
        fun ticket delta next found reported => ?_
      have reports := (Ticket.reports_of_report ticket tokenizer maxLength).of_ok reported
      have put : Spares first? c { c with scheduler :=
          { c.scheduler with tickets := c.scheduler.tickets.insert id next } } :=
        ⟨.put tidy found reports.given_mono reports.alike, fun _ _ runs => runs⟩
      exact Leads.after Spares.trans put (report_spares rest _ put.tidy)

theorem process_spares (tidy : c.scheduler.Tidy) (ids : List RequestId) (tokenizer : Tokenizer)
    (maxLength : Nat) : Leads (Spares first?) (process ids tokenizer maxLength) c := by
  rw [Leads, meets_process]
  refine Meets.mono (report_spares ids c tidy) (fun batch d spares => ?_) fun _ _ spares => spares
  have delivered : Spares first? d { d with delivered := d.delivered ++ [batch] } :=
    ⟨⟨spares.tidy, List.Sublist.refl _, List.Subset.refl _, rfl⟩, fun _ _ runs => runs⟩
  refine Leads.after Spares.trans (spares.trans delivered) ?_
  exact Leads.mono (reclaim_forward delivered.tidy _) fun _ => Spares.of_forward

/-! ### Operations -/

/-- Whether an operation neither takes a request nor lets requests report. -/
def Operation.Silent : Operation → Prop
  | .add _ | .process _ _ _ => False
  | _ => True

/-- **A silent operation** moves requests along the line at most. -/
theorem Operation.quiet (tidy : c.scheduler.Tidy) {operation : Operation}
    (silent : operation.Silent) : Leads Quiet operation.run c := by
  have quiet : ∀ {action : Action Cluster Unit}, Leads Forward action c → Leads Quiet action c :=
    fun leads => leads.mono fun _ => Forward.quiet
  have steady : ∀ {action : Action Cluster Unit}, Leads Steady action c → Leads Quiet action c :=
    fun leads => leads.mono fun _ steady => steady.quiet tidy
  cases operation with
  | add request => exact silent.elim
  | process ids tokenizer maxLength => exact silent.elim
  | start slots accepts notes =>
      refine quiet ?_
      unfold Operation.run
      rw [Leads, meets_discard]
      exact startWaiting_forward tidy _ _ _
  | changeLane id replica change =>
      refine steady (find_leads (.refl c) fun ticket found => put_steady found ?_)
      exact .modifyLane (fun lane => (change.kept lane).1) fun lane =>
        (change.kept lane).2 ▸ List.prefix_refl _
  | commit id replica sample =>
      exact steady (onScheduler_steady (Scheduler.commit_steady id replica sample _))
  | markPrefilled id => exact steady (onScheduler_steady (Scheduler.markPrefilled_steady id _))
  | abort id => exact quiet (onScheduler_forward (Scheduler.abort_forward tidy id))
  | preemptLast =>
      unfold Operation.run
      rw [Leads, meets_discard]
      exact (preemptLast_quiet tidy).mono (fun _ _ sent => sent.2.1)
        fun _ _ steady => steady.quiet tidy
  | reclaim ids => exact quiet (reclaim_forward tidy ids)
  | forward place sequence chunks =>
      refine steady ?_
      unfold Operation.run
      rw [Leads, meets_discard]
      exact onReplicas_steady _ c

/-- The request that joins the line if an operation is carried out. -/
def Operation.newcomer? : Operation → Option RequestId
  | .add request => some request.id
  | _ => none

/-- The request that an operation lets join, if it is carried out. -/
def Operation.arrival? (c : Cluster) (operation : Operation) : Option RequestId :=
  match operation.run c with
  | .ok _ _ => operation.newcomer?
  | .error _ _ => none

/-- The requests that arrive in a history, in order. -/
def arrivals (c : Cluster) : List Operation → List RequestId
  | [] => []
  | operation :: rest =>
    (operation.arrival? c).toList ++
      ((operation.after c).map fun d => d.arrivals rest).getD []

/-- **A submission** lets one request join that was not there before. -/
theorem add_follows (tidy : c.scheduler.Tidy) (request : Request) :
    Meets (onScheduler (Scheduler.add request)) c
      (fun _ d => c.scheduler.Follows (some request.id) d.scheduler)
      (fun _ d => c.scheduler.Follows none d.scheduler) := by
  rw [meets_onScheduler]
  refine ((Scheduler.add_line tidy request).and (Scheduler.add_meets request _)).mono ?_ ?_
  · rintro _ t ⟨⟨tidy', fresh, line, tickets⟩, _, _, added⟩
    refine ⟨tidy', ?_, fun id new member => ?_, fun id known => ?_, ?_⟩
    · rw [line]
      exact List.Sublist.refl _
    · cases new
      exact fresh (tidy.known _ (List.mem_of_mem_filter member))
    · rw [tickets] at known
      exact (Registry.mem_keys_insert.mp known).symm.imp_right fun same => congrArg some same.symm
    · rw [added]
      rfl
  · rintro _ t ⟨rfl, _⟩
    exact (Forward.refl tidy).scheduler.toOrderly.follows

/-- **An operation** lets at most the request join that it submits. -/
theorem Operation.follows (tidy : c.scheduler.Tidy) (operation : Operation) :
    Meets operation.run c
      (fun _ d => c.scheduler.Follows operation.newcomer? d.scheduler)
      (fun _ d => c.scheduler.Follows none d.scheduler) := by
  cases operation with
  | add request => exact add_follows tidy request
  | process ids tokenizer maxLength =>
      unfold Operation.run
      rw [meets_discard]
      have spares : Leads (Spares none) (Cluster.process ids tokenizer maxLength) c :=
        process_spares tidy ids tokenizer maxLength
      exact Meets.mono spares (fun _ _ spares => spares.orderly.follows)
        fun _ _ spares => spares.orderly.follows
  | _ =>
      exact Meets.mono (Operation.quiet tidy trivial)
        (fun _ _ quiet => quiet.scheduler.toOrderly.follows)
        fun _ _ quiet => quiet.scheduler.toOrderly.follows

/-- An operation in a history is carried out or refused. -/
theorem Operation.run_of_after {operation : Operation} (ended : operation.after c = some d) :
    operation.run c = .ok () d ∨ ∃ cause, operation.run c = .error (.refused cause) d := by
  unfold Operation.after at ended
  split at ended
  · split at ended
    · rename_i run
      cases ended
      exact Or.inl run
    · rename_i cause _ run
      cases ended
      exact Or.inr ⟨cause, run⟩
    · cases ended
  · cases ended

/-- Only what is permitted is tried. -/
theorem Operation.permitted_of_after {operation : Operation} (ended : operation.after c = some d) :
    operation.permitted c := by
  unfold Operation.after at ended
  split at ended
  · rename_i permitted
    exact permitted
  · cases ended

theorem Operation.follows_of_after (tidy : c.scheduler.Tidy) {operation : Operation}
    (ended : operation.after c = some d) :
    c.scheduler.Follows (operation.arrival? c) d.scheduler := by
  have follows := operation.follows tidy
  unfold Operation.arrival?
  rcases run_of_after ended with run | ⟨cause, run⟩
  · rw [meets_iff_of_ok run] at follows
    rwa [run]
  · rw [run]
    exact follows.of_error run

/-! ### Histories -/

/-- **The line over any history**: it stays in the order of arrival. -/
theorem line_after (tidy : c.scheduler.Tidy) {log : List RequestId}
    (ordered : c.scheduler.line.Sublist log.dedup) {history : List Operation}
    (ended : c.after history = some d) :
    d.scheduler.Tidy ∧ d.scheduler.line.Sublist (log ++ c.arrivals history).dedup := by
  induction history generalizing c log with
  | nil =>
      cases ended
      rw [arrivals, List.append_nil]
      exact ⟨tidy, ordered⟩
  | cons operation rest ih =>
      obtain ⟨e, first, later⟩ := Option.bind_eq_some_iff.mp ended
      have follows := operation.follows_of_after tidy first
      rw [arrivals, first, ← List.append_assoc]
      exact ih follows.tidy (follows.ordered ordered) later

end Cluster

end ContinuousBatching
