/-
**How operations move the line.**

Every operation on a cluster is followed here without any assumption about its replicas, which may
refuse anything at any time. What can be said is where it leads, carried out or refused.

* `Scheduler.commit_steady`, `Cluster.feedPending_steady`, `Cluster.feedLast_steady`: tokens move
  nobody;
* `Cluster.startWhile_forward`, `Cluster.reclaimOne_forward`, `Scheduler.abort_forward`: requests
  start or leave;
* `Cluster.preempt_quiet`: a request is sent back to wait, and nobody else;
* `Scheduler.add_line`: a new request joins the line at its end.
-/

import ContinuousBatching.Engine.Step
import ContinuousBatching.Proofs.Scheduler.Line

namespace ContinuousBatching

namespace Scheduler

variable {s : Scheduler} {id : RequestId} {α : Type}

/-- A look-up before an action. -/
theorem find_leads {R : Scheduler → Scheduler → Prop} {next : Ticket → Action Scheduler α}
    (same : R s s)
    (found : ∀ ticket, s.tickets.get? id = some ticket → Leads R (next ticket) s) :
    Leads R (find id >>= next) s := by
  rw [Leads, meets_bind, meets_find]
  cases there : s.tickets.get? id with
  | none =>
      rw [ticketOf_of_absent there]
      exact same
  | some ticket =>
      rw [ticketOf_of_found there]
      exact found ticket there

theorem onTotals_still (action : Action Totals α) (s : Scheduler) :
    Leads Still (onTotals action) s := by
  rw [Leads, meets_onTotals]
  exact (Meets.anyhow _ _).mono (fun _ _ _ => ⟨rfl, rfl, rfl, rfl⟩)
    fun _ _ _ => ⟨rfl, rfl, rfl, rfl⟩

theorem onIds_still (action : Action SequenceIds α) (s : Scheduler) :
    Leads Still (onIds action) s := by
  rw [Leads, meets_onIds]
  exact (Meets.anyhow _ _).mono (fun _ _ _ => ⟨rfl, rfl, rfl, rfl⟩)
    fun _ _ _ => ⟨rfl, rfl, rfl, rfl⟩

theorem recycle_still (sequence : SequenceId) (s : Scheduler) :
    Leads Still (recycle sequence) s := by
  unfold recycle
  rw [Leads, meets_bind, meets_get]
  split
  · exact .refl s
  · exact onIds_still _ s

theorem recycleStale_still (sequence? : Option SequenceId) (s : Scheduler) :
    Leads Still (recycleStale sequence?) s := by
  cases sequence? with
  | none => exact .refl s
  | some sequence => exact recycle_still sequence s

theorem commit_steady (id : RequestId) (replica : Nat) (sample : Sample) (s : Scheduler) :
    Leads Steady (commit id replica sample) s := by
  unfold commit
  rw [Leads, meets_bind, meets_get]
  split
  · refine find_leads (.refl s) fun ticket found => ?_
    refine Leads.liftM_bind (.refl s) fun before _ => ?_
    have put : Leads Steady (put id (ticket.modifyLane replica fun lane => lane.commit sample)) s :=
      .put found (.modifyLane (fun _ => rfl) fun lane => List.prefix_append ..)
    by_cases missing : (ticket.lane? replica).isNone = true
    · rw [if_pos missing]
      exact .refl s
    · rw [if_neg missing]
      refine put.bind Steady.trans fun _ t _ => ?_
      split
      · exact Leads.liftM_bind (.refl t) fun _ _ => (onTotals_still _ t).mono fun _ => .of_still
      · exact .refl t
  · exact .refl s

theorem markPrefilled_steady (id : RequestId) (s : Scheduler) :
    Leads Steady (markPrefilled id) s :=
  find_leads (.refl s) fun _ found => .put found .markPrefilled

/-- **A new request joins the line at its end.** -/
theorem add_line (tidy : s.Tidy) (request : Request) :
    Meets (add request) s
      (fun _ t => t.Tidy ∧ request.id ∉ s.tickets.keys ∧ t.line = s.line ++ [request.id] ∧
        t.tickets = s.tickets.insert request.id (.ofRequest request s.laneCount))
      (fun _ t => t = s) := by
  refine (add_meets request s).mono ?_ (fun _ _ same => same.1)
  rintro _ _ ⟨fresh, _, rfl⟩
  have absent : request.id ∉ s.running ++ s.waiting := fun queued =>
    fresh (tidy.known _ queued)
  let ticket : Ticket := .ofRequest request s.laneCount
  have queue : (s.added request.id ticket).running ++ (s.added request.id ticket).waiting =
      (s.running ++ s.waiting) ++ [request.id] := (List.append_assoc ..).symm
  refine ⟨⟨?_, fun other queued => ?_, fun other held found => ?_⟩, fresh, ?_, rfl⟩
  · rw [queue]
    refine List.nodup_append.mpr ⟨tidy.nodup, by simp, fun other member last new => ?_⟩
    rw [List.mem_singleton.mp new]
    exact fun same => absent (same ▸ member)
  · rw [queue, List.mem_append, List.mem_singleton] at queued
    exact Registry.mem_keys_insert.mpr (queued.symm.imp_right (tidy.known other))
  · replace found : (s.tickets.insert request.id ticket).get? other = some held := found
    rw [Registry.get?_insert] at found
    split at found
    · cases found
      exact Ticket.alike_ofRequest request s.laneCount
    · exact tidy.alike other held found
  · have found : (s.added request.id ticket).tickets.get? request.id = some ticket := by
      show (s.tickets.insert request.id ticket).get? request.id = _
      rw [Registry.get?_insert, if_pos rfl]
    have here : (s.added request.id ticket).givenUp request.id = false := givenUp_of_found found
    rw [line, queue, List.filter_append, List.filter_cons, here]
    refine congrArg (· ++ [request.id]) (List.filter_congr fun other member => ?_)
    have differ : other ≠ request.id := fun same => absent (same ▸ member)
    show (!((s.tickets.insert request.id ticket).get? other).any _) = _
    rw [Registry.get?_insert, if_neg differ]
    rfl

/-- **Giving a request up** takes it out of the line. -/
theorem abort_forward (tidy : s.Tidy) (id : RequestId) : Leads Forward (abort id) s := by
  unfold abort
  rw [Leads, meets_bind, meets_get]
  split
  · exact find_leads (.refl tidy) fun ticket found => .of_steady tidy (.put found .abort)
  · split
    · rename_i idle _
      have shorter : s.Forward { s with waiting := s.waiting.erase id } :=
        ⟨.of_queue tidy rfl rfl (List.erase_sublist.append_left _), List.erase_subset⟩
      have gone : id ∉ s.running ++ s.waiting.erase id := by
        rw [List.mem_append, not_or]
        exact ⟨idle, (List.nodup_append.mp tidy.nodup).2.1.not_mem_erase⟩
      rw [meets_bind, meets_set]
      refine Leads.after Forward.trans shorter (find_leads (.refl shorter.tidy) fun ticket _ => ?_)
      rw [Leads, meets_bind, meets_modify]
      have forgotten := Quiet.forget shorter.tidy gone
      refine Leads.after Forward.trans ⟨forgotten, fun _ waits => waits⟩ ?_
      exact (recycleStale_still _ _).mono fun _ still => .of_steady forgotten.tidy (.of_still still)
    · exact .refl tidy

end Scheduler

namespace Cluster

variable {c d : Cluster} {id : RequestId} {α β : Type}

/-! ### Feeding -/

theorem find_leads {R : Cluster → Cluster → Prop} {next : Ticket → Action Cluster α}
    (same : R c c)
    (found : ∀ ticket, c.scheduler.tickets.get? id = some ticket → Leads R (next ticket) c) :
    Leads R (find id >>= next) c := by
  rw [Leads, meets_bind, meets_find]
  cases there : c.scheduler.tickets.get? id with
  | none =>
      rw [Scheduler.ticketOf_of_absent there]
      exact same
  | some ticket =>
      rw [Scheduler.ticketOf_of_found there]
      exact found ticket there

theorem onScheduler_steady {action : Action Scheduler α}
    (steady : Leads Scheduler.Steady action c.scheduler) : Leads Steady (onScheduler action) c := by
  rw [Leads, meets_onScheduler]
  exact Meets.mono steady (fun _ _ steady => ⟨steady, rfl⟩) fun _ _ steady => ⟨steady, rfl⟩

theorem onScheduler_forward {action : Action Scheduler α}
    (forward : Leads Scheduler.Forward action c.scheduler) :
    Leads Forward (onScheduler action) c := by
  rw [Leads, meets_onScheduler]
  exact Meets.mono forward (fun _ _ forward => ⟨forward, rfl⟩) fun _ _ forward => ⟨forward, rfl⟩

/-- Whatever the replicas do. -/
theorem onReplicas_steady (action : Action (List Replica) α) (c : Cluster) :
    Leads Steady (onReplicas action) c := by
  rw [Leads, meets_onReplicas]
  exact (Meets.anyhow _ _).mono (fun _ _ _ => .of_eq rfl rfl) fun _ _ _ => .of_eq rfl rfl

theorem record_steady (id : RequestId) (event : Event) (c : Cluster) :
    Leads Steady (record id event) c :=
  .of_eq rfl rfl

theorem put_steady {ticket new : Ticket} (found : c.scheduler.tickets.get? id = some ticket)
    (grows : ticket.Grows new) : Leads Steady (put id new) c :=
  ⟨.put found grows, rfl⟩

theorem recordAll_steady (ids : List RequestId) (event : Event) (c : Cluster) :
    Leads Steady (ids.forM fun id => record id event) c :=
  Leads.forM Steady.trans (.refl c) (fun id t _ => record_steady id event t) ids

theorem feed_steady (id : RequestId) (replica : Nat) (sequence : SequenceId) (chunks : List Chunk)
    (c : Cluster) : Leads Steady (feed id replica sequence chunks) c :=
  (onReplicas_steady _ c).bind Steady.trans fun sample _ _ =>
    (onScheduler_steady (Scheduler.commit_steady id replica sample _)).bind Steady.trans
      fun _ e _ => .refl e

theorem feedPending_steady (id : RequestId) (replica : Nat) (c : Cluster) :
    Leads Steady (feedPending id replica) c := by
  refine find_leads (.refl c) fun ticket found => ?_
  refine Leads.liftM_bind (.refl c) fun lane _ => ?_
  cases lane.sequence with
  | none => exact .refl c
  | some sequence =>
      have grows : ticket.Grows (ticket.modifyLane replica Lane.fed) :=
        .modifyLane (fun _ => rfl) fun _ => List.prefix_refl _
      exact (put_steady found grows).bind Steady.trans fun _ d _ =>
        feed_steady id replica sequence lane.pending d

theorem feedLast_steady (id : RequestId) (replica : Nat) (c : Cluster) :
    Leads Steady (feedLast id replica) c := by
  refine find_leads (.refl c) fun ticket found => ?_
  refine Leads.liftM_bind (.refl c) fun lane _ => ?_
  split
  · exact .refl c
  · exact .refl c
  · exact feed_steady ..

theorem onEachPlace_steady {action : Nat → Action Cluster Sample}
    (steady : ∀ place d, Leads Steady (action place) d) (c : Cluster) :
    Leads Steady (onEachPlace action) c := by
  unfold onEachPlace
  rw [Leads, meets_bind, meets_get]
  refine Leads.forM Steady.trans (.refl c) (fun place d _ => ?_) _
  rw [Leads, meets_discard]
  exact steady place d

theorem prefillOne_steady (id : RequestId) (c : Cluster) : Leads Steady (prefillOne id) c :=
  (onEachPlace_steady (feedPending_steady id) c).bind Steady.trans fun _ _ _ =>
    (onScheduler_steady (Scheduler.markPrefilled_steady id _)).bind Steady.trans fun _ e _ =>
      record_steady id .prefilled e

theorem decodeOne_steady (id : RequestId) (c : Cluster) : Leads Steady (decodeOne id) c :=
  onEachPlace_steady (feedLast_steady id) c

theorem prefillAll_steady (ids : List RequestId) (c : Cluster) :
    Leads Steady (ids.forM prefillOne) c :=
  Leads.forM Steady.trans (.refl c) (fun id d _ => prefillOne_steady id d) ids

theorem decodeAll_steady (ids : List RequestId) (c : Cluster) :
    Leads Steady (ids.forM decodeOne) c :=
  Leads.forM Steady.trans (.refl c) (fun id d _ => decodeOne_steady id d) ids

/-! ### Starting -/

theorem dropStale_steady {ticket : Ticket} (found : c.scheduler.tickets.get? id = some ticket) :
    Leads Steady (dropStale id ticket) c := by
  unfold dropStale
  split
  · exact .refl c
  · exact (put_steady found (.attachAll none)).bind Steady.trans fun _ _ _ =>
      onScheduler_steady ((Scheduler.recycle_still _ _).mono fun _ => .of_still)

/-- An action that moves nobody, after others that moved nobody either. -/
theorem Steady.bind {action : Action Cluster β} {next : β → Action Cluster α}
    {done : α → Cluster → Prop} {stopped : Stop → Cluster → Prop} (steady : c.Steady d)
    (first : Leads Steady action d) (stop : ∀ reason e, c.Steady e → stopped reason e)
    (later : ∀ value e, c.Steady e → Meets (next value) e done stopped) :
    Meets (action >>= next) d done stopped := by
  rw [meets_bind]
  exact Meets.mono first (fun value e more => later value e (steady.trans more))
    fun reason e more => stop reason e (steady.trans more)

/-- **A start.** Only when everything is ready does the request leave the waiting queue. -/
theorem start_forward (tidy : c.scheduler.Tidy) {rest : List RequestId}
    (front : c.scheduler.waiting = id :: rest) :
    Meets (start id) c
      (fun _ d => c.Forward d ∧ d.scheduler.waiting = rest ∧
        d.scheduler.running = c.scheduler.running ++ [id])
      (fun _ d => c.Forward d) := by
  have stop : ∀ (_ : Stop) d, c.Steady d → c.Forward d := fun _ _ steady => steady.forward tidy
  unfold start
  rw [meets_bind, meets_find]
  cases found : c.scheduler.tickets.get? id with
  | none =>
      rw [Scheduler.ticketOf_of_absent found]
      exact .refl tidy
  | some ticket =>
      rw [Scheduler.ticketOf_of_found found, yields_ok]
      refine (Steady.refl c).bind (dropStale_steady found) stop fun _ _ steady => ?_
      refine steady.bind (onScheduler_steady ((Scheduler.onIds_still _ _).mono fun _ => .of_still))
        stop fun sequence _ steady => ?_
      refine steady.bind (onReplicas_steady _ _) stop fun _ _ steady => ?_
      obtain ⟨ticket, found, _⟩ := steady.scheduler.found found
      rw [meets_bind]
      refine find_meets found ?_
      refine steady.bind (put_steady found (.attachAll (some sequence))) stop fun _ d steady => ?_
      rw [meets_bind, meets_liftM]
      refine (occupiedLength_yields ticket).mono (fun occupied _ => ?_)
        (fun _ _ => steady.forward tidy)
      have waits : d.scheduler.waiting = id :: rest := steady.scheduler.waiting.trans front
      have advanced : d.scheduler.Forward { d.scheduler with
          waiting := d.scheduler.waiting.tail, running := d.scheduler.running ++ [id] } :=
        ⟨.advance (steady.quiet tidy).tidy waits, fun _ => List.mem_of_mem_tail⟩
      have forward : ∀ t, Scheduler.Still _ t → c.Forward { d with scheduler := t } :=
        fun t last => (steady.forward tidy).trans
          ⟨advanced.trans (.of_steady advanced.tidy (.of_still last)), rfl⟩
      unfold startFront
      rw [meets_onScheduler, meets_bind, meets_modify]
      refine Meets.mono (Scheduler.onTotals_still _ _) (fun _ t last => ⟨forward t last, ?_, ?_⟩)
        (fun _ t last => forward t last)
      · refine last.waiting.trans ?_
        show d.scheduler.waiting.tail = rest
        rw [waits, List.tail_cons]
      · exact last.running.trans (congrArg (· ++ [id]) steady.scheduler.running)

/-- **Admission** by any test. The requests still to be looked at are the waiting ones. -/
theorem startWhile_forward {π : Type} {slots : Nat} {test : AdmissionTest π} :
    ∀ (list : List RequestId) (notes : π) (c : Cluster), c.scheduler.Tidy →
      c.scheduler.waiting = list → Leads Forward (startWhile slots test notes list) c
  | [], _, _, tidy, _ => .refl tidy
  | id :: rest, notes, c, tidy, front => by
      refine startWhile_rule (fun _ => .refl tidy) (fun _ => .refl tidy)
        (fun _ _ _ _ => .refl tidy) fun ticket later _ _ _ => ?_
      refine (start_forward tidy front).mono ?_ (fun _ _ forward => forward)
      rintro _ d ⟨forward, front, _⟩
      exact Leads.after Forward.trans forward
        (startWhile_forward rest later d forward.tidy front)

theorem startWaiting_forward {π : Type} (tidy : c.scheduler.Tidy) (slots : Nat)
    (test : AdmissionTest π) (notes : π) : Leads Forward (startWaiting slots test notes) c :=
  startWhile_forward c.scheduler.waiting notes c tidy rfl

/-! ### Preempting -/

/-- **A preemption** of a request behind which everybody was given up. It is the last thing that
happens that the request is sent back. -/
theorem preempt_quiet (tidy : c.scheduler.Tidy) {before behind : List RequestId}
    (queue : c.scheduler.running = before ++ id :: behind)
    (given : ∀ other ∈ behind, c.scheduler.givenUp other = true) :
    Meets (preempt id) c
      (fun _ d => c.Quiet d ∧ d.scheduler.waiting = id :: c.scheduler.waiting ∧
        d.scheduler.running = c.scheduler.running.erase id)
      (fun _ d => c.Steady d) := by
  have stop : ∀ (_ : Stop) d, c.Steady d → c.Steady d := fun _ _ steady => steady
  unfold preempt
  rw [meets_bind, meets_find]
  cases found : c.scheduler.tickets.get? id with
  | none =>
      rw [Scheduler.ticketOf_of_absent found]
      exact .refl c
  | some ticket =>
      rw [Scheduler.ticketOf_of_found found, yields_ok, meets_bind, meets_liftM]
      refine (checkFed_yields id ticket.lanes).mono (fun _ _ => ?_) (fun _ _ => .refl c)
      cases ticket.primary.sequence with
      | none => exact .refl c
      | some sequence =>
          rw [meets_bind, meets_record, meets_bind, meets_liftM]
          have counted : ∀ trace totals, c.Steady
              { c with trace := trace, scheduler := { c.scheduler with totals := totals } } :=
            fun _ _ => ⟨.of_still ⟨rfl, rfl, rfl, rfl⟩, rfl⟩
          refine (occupiedLength_yields ticket).mono (fun length _ => ?_) (fun _ _ => counted _ _)
          rw [meets_bind, meets_onScheduler, Scheduler.meets_onTotals]
          refine (Meets.anyhow _ _).mono (fun _ totals _ => ?_) (fun _ totals _ => counted _ totals)
          refine (counted _ totals).bind (put_steady found .rewound) stop fun _ _ steady => ?_
          refine steady.bind (onReplicas_steady _ _) stop fun _ d steady => ?_
          rw [meets_modifyScheduler]
          refine ⟨(steady.quiet tidy).trans ⟨?_, rfl⟩, congrArg _ steady.scheduler.waiting,
            congrArg (List.erase · id) steady.scheduler.running⟩
          exact .requeue (steady.quiet tidy).tidy (steady.scheduler.running.trans queue)
            fun other member => steady.scheduler.givenUp (given other member)

theorem preemptLast_quiet (tidy : c.scheduler.Tidy) :
    Meets preemptLast c
      (fun id d => c.scheduler.victim? = some id ∧ c.Quiet d ∧
        d.scheduler.waiting = id :: c.scheduler.waiting ∧
        d.scheduler.running = c.scheduler.running.erase id)
      (fun _ d => c.Steady d) := by
  refine preemptLast_rule (fun _ => .refl c) fun id victim => ?_
  obtain ⟨before, behind, queue, _, given⟩ := Scheduler.victim?_spec victim
  exact (preempt_quiet tidy queue given).mono (fun _ _ sent => ⟨victim, sent⟩)
    fun _ _ steady => steady

/-! ### Ending -/

/-- **The end of a running request.** It leaves the queue before it is forgotten; in the end its
sequence was removed from every replica. -/
theorem reclaimOne_forward (tidy : c.scheduler.Tidy) (id : RequestId) :
    Meets (reclaimOne id) c
      (fun _ d => c.Forward d ∧ id ∈ c.scheduler.running ∧
        id ∉ d.scheduler.running ++ d.scheduler.waiting ∧
        d.scheduler.running = c.scheduler.running.erase id ∧
        d.scheduler.waiting = c.scheduler.waiting ∧
        d.scheduler.tickets = c.scheduler.tickets.erase id ∧ ∃ ticket sequence,
          c.scheduler.tickets.get? id = some ticket ∧ ticket.primary.sequence = some sequence ∧
          onEvery (Replica.removeSequence sequence) c.replicas = .ok () d.replicas)
      (fun _ d => c.Forward d) := by
  unfold reclaimOne
  rw [meets_bind, meets_get]
  split
  · rename_i runs
    rw [meets_bind, meets_find]
    cases found : c.scheduler.tickets.get? id with
    | none =>
        rw [Scheduler.ticketOf_of_absent found]
        exact .refl tidy
    | some ticket =>
        rw [Scheduler.ticketOf_of_found found, yields_ok]
        cases attached : ticket.primary.sequence with
        | none => exact .refl tidy
        | some sequence =>
            have left : c.scheduler.Forward
                { c.scheduler with running := c.scheduler.running.erase id } :=
              ⟨.of_queue tidy rfl rfl (List.erase_sublist.append_right _), fun _ waits => waits⟩
            have gone : id ∉ c.scheduler.running.erase id ++ c.scheduler.waiting := by
              rw [List.mem_append, not_or]
              exact ⟨(List.nodup_append.mp tidy.nodup).1.not_mem_erase, tidy.not_waiting runs⟩
            have forgotten := left.trans ⟨.forget left.tidy gone, fun _ waits => waits⟩
            have forward : ∀ replicas t, Scheduler.Still _ t →
                c.Forward { c with replicas := replicas, scheduler := t } := fun _ _ still =>
              ⟨forgotten.trans (.of_steady forgotten.tidy (.of_still still)), rfl⟩
            rw [meets_bind, meets_modifyScheduler, meets_bind, meets_onReplicas]
            refine (Meets.anyhow _ _).with_run.mono (fun _ replicas removed => ?_)
              (fun _ _ _ => ⟨left, rfl⟩)
            rw [meets_bind, meets_modifyScheduler, meets_bind, meets_onScheduler]
            refine Meets.mono (Scheduler.recycle_still _ _) (fun _ s first => ?_)
              (fun _ t first => forward replicas t first)
            rw [meets_onScheduler]
            refine Meets.mono (Scheduler.onTotals_still _ s) (fun _ t last => ?_)
              (fun _ t last => forward replicas t (first.trans last))
            replace last := first.trans last
            refine ⟨forward replicas t last, runs, ?_, last.running, last.waiting, last.tickets,
              ticket, sequence, rfl, attached, removed.2⟩
            rw [last.running, last.waiting]
            exact gone
  · exact .refl tidy

theorem reclaim_forward (tidy : c.scheduler.Tidy) (ids : List RequestId) :
    Leads Forward (reclaim ids) c :=
  Leads.forM Forward.trans (.refl tidy)
    (fun id _ forward => (reclaimOne_forward forward.tidy id).mono (fun _ _ ended => ended.1)
      fun _ _ forward => forward) ids

end Cluster

end ContinuousBatching
