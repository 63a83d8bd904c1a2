/-
**Waiting requests are prepared for being fed everything.**

While a request waits, nobody touches the buffers of its lanes. So they are what they were when it
came to wait: the input of a new request, or, after a preemption, the input followed by every token
that the lane has committed so far, on each lane its own. A later preemption starts from the input
again, not from what was fed last, so that no token is fed twice and none is lost. This holds
whatever the replicas do, also if they refuse an operation midway.

* `replays_replay`: what the input followed by tokens looks like (`Replays`);
* `Cluster.Undisturbed`: whoever waits after a change waited before, with the same buffers;
* `Operation.undisturbed`, `preempt_rewinds`: every operation but the submission of a request and
  a preemption leaves the waiting requests undisturbed, and a preemption rewinds its victim only;
* `Cluster.prepared_after`: the buffers of waiting requests after any history.
-/

import ContinuousBatching.Proofs.Scheduler.Precedence

namespace ContinuousBatching

/-! ### What a replay looks like -/

/-- The chunks feed what the input does, then the tokens: the embeddings are those of the input in
the same places, and there is at most one chunk more. -/
structure Replays (inputs : List Chunk) (ids : List TokenId) (chunks : List Chunk) : Prop where
  tokens : tokenIds chunks = tokenIds inputs ++ ids
  positions : positions chunks = positions inputs + ids.length
  embeddings : ∀ (place : Nat) (kind : String) (length : Nat),
    chunks[place]? = some (.embedding kind length) ↔ inputs[place]? = some (.embedding kind length)
  length : chunks.length ≤ inputs.length + 1

theorem replays_replay (inputs : List Chunk) (ids : List TokenId) :
    Replays inputs ids (replay inputs ids) where
  tokens := tokenIds_replay inputs ids
  positions := positions_replay inputs ids
  embeddings := fun place kind length => by
    fun_induction replay inputs ids generalizing place with
    | case1 ids => cases place <;> simp
    | case2 last ids => cases place <;> simp
    | case3 kind' length' ids =>
        cases place with
        | zero => simp
        | succ place => cases place <;> simp
    | case4 chunk next rest ids ih =>
        cases place with
        | zero => simp
        | succ place => simpa using ih place
  length := by
    fun_induction replay inputs ids with
    | case1 ids => simp
    | case2 last ids => simp
    | case3 kind length ids => simp
    | case4 chunk next rest ids ih =>
        simp only [List.length_cons] at ih ⊢
        omega

/-! ### Whoever waits is left alone -/

/-- What a request asks for and the buffers of its lanes, whatever they are attached to. -/
def Ticket.buffers (ticket : Ticket) : Request × List Lane :=
  (ticket.request, (ticket.attachAll none).lanes)

theorem Ticket.buffers_attachAll (ticket : Ticket) (sequence : Option SequenceId) :
    (ticket.attachAll sequence).buffers = ticket.buffers := by
  rw [buffers, attachAll_attachAll]
  rfl

theorem Ticket.Reported.buffers {ticket next : Ticket} (reported : ticket.Reported next) :
    next.buffers = ticket.buffers := by
  simp only [Ticket.buffers, attachAll, mapLanes, lanes, reported.request, reported.primary,
    reported.others]

/-- A lane of a request that waits and was preempted that often since it was submitted. -/
structure Lane.Prepared (request : Request) (preemptions : Nat) (lane : Lane) : Prop where
  drafts : lane.drafts = []
  fresh : preemptions = 0 → lane.pending = request.inputs ∧ lane.committed = []
  again : preemptions ≠ 0 → lane.pending = replay request.inputs lane.committedTokens

theorem Lane.prepared_attach {lane : Lane} {sequence : Option SequenceId} {request : Request}
    {preemptions : Nat} :
    (lane.attach sequence).Prepared request preemptions ↔ lane.Prepared request preemptions :=
  ⟨fun prepared => ⟨prepared.drafts, prepared.fresh, prepared.again⟩,
    fun prepared => ⟨prepared.drafts, prepared.fresh, prepared.again⟩⟩

/-- Requests with the same buffers are prepared alike. -/
theorem Ticket.prepared_of_buffers {ticket new : Ticket} {preemptions : Nat}
    (same : new.buffers = ticket.buffers)
    (prepared : ∀ lane ∈ ticket.lanes, lane.Prepared ticket.request preemptions) :
    ∀ lane ∈ new.lanes, lane.Prepared new.request preemptions := by
  obtain ⟨request, lanes⟩ := Prod.mk.inj same
  intro lane member
  simp only [attachAll, lanes_mapLanes] at lanes
  have there : lane.attach none ∈ ticket.lanes.map fun lane => lane.attach none := by
    rw [← lanes]
    exact List.mem_map_of_mem member
  obtain ⟨old, known, attached⟩ := List.mem_map.mp there
  have bare : (old.attach none).Prepared ticket.request preemptions :=
    Lane.prepared_attach.mpr (prepared old known)
  rw [attached, ← request] at bare
  exact Lane.prepared_attach.mp bare

namespace Scheduler

variable {s t u : Scheduler} {id : RequestId} {ticket new : Ticket} {α : Type}

/-- The request of an id and its buffers. -/
def buffers? (s : Scheduler) (id : RequestId) : Option (Request × List Lane) :=
  (s.tickets.get? id).map Ticket.buffers

theorem buffers?_of_insert (tickets : t.tickets = s.tickets.insert id new) (other : RequestId) :
    t.buffers? other = if other = id then some new.buffers else s.buffers? other := by
  rw [buffers?, tickets, Registry.get?_insert]
  split <;> rfl

/-- Whoever waits waited before, with the same buffers, and whoever is known was known before. -/
structure Undisturbed (s t : Scheduler) : Prop where
  waits : t.waiting ⊆ s.waiting
  buffers : ∀ id ∈ t.waiting, t.buffers? id = s.buffers? id
  requests : ∀ {id new}, t.tickets.get? id = some new →
    ∃ ticket, s.tickets.get? id = some ticket ∧ new.request = ticket.request

namespace Undisturbed

/-- The same tickets, and nobody new in the waiting queue. -/
theorem of_tickets (tickets : t.tickets = s.tickets) (waits : t.waiting ⊆ s.waiting) :
    s.Undisturbed t where
  waits := waits
  buffers := fun id _ => by rw [buffers?, buffers?, tickets]
  requests := fun found => ⟨_, tickets ▸ found, rfl⟩

theorem of_still (still : s.Still t) : s.Undisturbed t :=
  of_tickets still.tickets (still.waiting ▸ List.Subset.refl _)

theorem refl (s : Scheduler) : s.Undisturbed s := of_still (.refl s)

theorem trans (first : s.Undisturbed t) (second : t.Undisturbed u) : s.Undisturbed u where
  waits := fun _ waits => first.waits (second.waits waits)
  buffers := fun id waits =>
    (second.buffers id waits).trans (first.buffers id (second.waits waits))
  requests := fun found => by
    obtain ⟨middle, there, same⟩ := second.requests found
    obtain ⟨ticket, here, earlier⟩ := first.requests there
    exact ⟨ticket, here, same.trans earlier⟩

/-- A ticket is replaced by one of the same request, and if that waits, with the same buffers. -/
theorem put (found : s.tickets.get? id = some ticket) (request : new.request = ticket.request)
    (same : id ∈ s.waiting → new.buffers = ticket.buffers) :
    s.Undisturbed { s with tickets := s.tickets.insert id new } where
  waits := List.Subset.refl _
  buffers := fun other waits => by
    rw [buffers?_of_insert rfl]
    split
    · rename_i here
      rw [here] at waits ⊢
      rw [same waits, buffers?, found]
      rfl
    · rfl
  requests := fun {other held} there => by
    replace there : (s.tickets.insert id new).get? other = some held := there
    rw [Registry.get?_insert] at there
    split at there
    · rename_i here
      cases there
      exact ⟨ticket, here ▸ found, request⟩
    · exact ⟨held, there, rfl⟩

/-- A request that does not wait is forgotten. -/
theorem forget (idle : id ∉ s.waiting) :
    s.Undisturbed { s with tickets := s.tickets.erase id } where
  waits := List.Subset.refl _
  buffers := fun other waits => by
    have differ : other ≠ id := fun same => idle (same ▸ waits)
    show ((s.tickets.erase id).get? other).map _ = _
    rw [Registry.get?_erase, if_neg differ]
    rfl
  requests := fun {other held} there => by
    replace there : (s.tickets.erase id).get? other = some held := there
    rw [Registry.get?_erase] at there
    split at there
    · cases there
    · exact ⟨held, there, rfl⟩

end Undisturbed

theorem commit_undisturbed (tidy : s.Tidy) (replica : Nat) (sample : Sample) :
    Leads Undisturbed (commit id replica sample) s := by
  unfold commit
  rw [Leads, meets_bind, meets_get]
  split
  · rename_i runs
    refine find_leads (.refl s) fun ticket found => ?_
    refine Leads.liftM_bind (.refl s) fun before _ => ?_
    have put : Leads Undisturbed
        (put id (ticket.modifyLane replica fun lane => lane.commit sample)) s :=
      .put found Ticket.request_modifyLane fun waits => absurd waits (tidy.not_waiting runs)
    by_cases missing : (ticket.lane? replica).isNone = true
    · rw [if_pos missing]
      exact .refl s
    · rw [if_neg missing]
      refine put.bind Undisturbed.trans fun _ t _ => ?_
      split
      · exact Leads.liftM_bind (.refl t) fun _ _ => (onTotals_still _ t).mono fun _ => .of_still
      · exact .refl t
  · exact .refl s

theorem abort_undisturbed (tidy : s.Tidy) (id : RequestId) :
    Leads Undisturbed (abort id) s := by
  unfold abort
  rw [Leads, meets_bind, meets_get]
  split
  · exact find_leads (.refl s) fun ticket found => .put found rfl fun _ => rfl
  · split
    · have shorter : s.Undisturbed { s with waiting := s.waiting.erase id } :=
        .of_tickets rfl List.erase_subset
      have gone : id ∉ s.waiting.erase id := (List.nodup_append.mp tidy.nodup).2.1.not_mem_erase
      rw [meets_bind, meets_set]
      refine Leads.after Undisturbed.trans shorter (find_leads (.refl _) fun ticket _ => ?_)
      rw [Leads, meets_bind, meets_modify]
      refine Leads.after Undisturbed.trans (.forget gone) ?_
      exact (recycleStale_still _ _).mono fun _ => .of_still
    · exact .refl s

end Scheduler

namespace Cluster

variable {c d e : Cluster} {id : RequestId} {α : Type}

/-- Whoever waits waited before, with the same buffers, and whoever is known was known before. -/
def Undisturbed (c d : Cluster) : Prop := c.scheduler.Undisturbed d.scheduler

theorem Undisturbed.refl (c : Cluster) : c.Undisturbed c := Scheduler.Undisturbed.refl _

theorem Undisturbed.trans (first : c.Undisturbed d) (second : d.Undisturbed e) :
    c.Undisturbed e :=
  Scheduler.Undisturbed.trans first second

theorem onScheduler_undisturbed {action : Action Scheduler α}
    (leads : Leads Scheduler.Undisturbed action c.scheduler) :
    Leads Undisturbed (onScheduler action) c := by
  rw [Leads, meets_onScheduler]
  exact leads

theorem onStill_undisturbed {action : Action Scheduler α}
    (still : Leads Scheduler.Still action c.scheduler) :
    Leads Undisturbed (onScheduler action) c :=
  onScheduler_undisturbed (still.mono fun _ => .of_still)

/-- Whatever the replicas do. -/
theorem onReplicas_undisturbed (action : Action (List Replica) α) (c : Cluster) :
    Leads Undisturbed (onReplicas action) c := by
  rw [Leads, meets_onReplicas]
  exact (Meets.anyhow _ _).mono (fun _ _ _ => .refl c) fun _ _ _ => .refl c

/-- Attaching the lanes of a request leaves their buffers alone. -/
theorem attach_undisturbed {ticket : Ticket} (found : c.scheduler.tickets.get? id = some ticket)
    (sequence : Option SequenceId) : Leads Undisturbed (put id (ticket.attachAll sequence)) c :=
  Scheduler.Undisturbed.put found rfl fun _ => Ticket.buffers_attachAll ticket sequence

/-! ### Operations that leave them alone -/

/-- **A start** changes attachments only, and then the request does not wait any more. -/
theorem start_undisturbed (id : RequestId) (c : Cluster) : Leads Undisturbed (start id) c := by
  refine find_leads (.refl c) fun ticket found => ?_
  have stale : Leads Undisturbed (dropStale id ticket) c := by
    unfold dropStale
    split
    · exact .refl c
    · exact (attach_undisturbed found none).bind Undisturbed.trans fun _ d _ =>
        onStill_undisturbed (Scheduler.recycle_still _ _)
  refine stale.bind Undisturbed.trans fun _ _ _ => ?_
  refine (onStill_undisturbed (Scheduler.onIds_still _ _)).bind Undisturbed.trans
    fun sequence _ _ => ?_
  refine (onReplicas_undisturbed _ _).bind Undisturbed.trans fun _ d _ => ?_
  refine find_leads (.refl d) fun ticket found => ?_
  refine (attach_undisturbed found (some sequence)).bind Undisturbed.trans fun _ d _ => ?_
  refine Leads.liftM_bind (.refl d) fun occupied _ => onScheduler_undisturbed ?_
  unfold startFront
  rw [Leads, meets_bind, meets_modify]
  have moved : d.scheduler.Undisturbed { d.scheduler with
      waiting := d.scheduler.waiting.tail, running := d.scheduler.running ++ [id] } :=
    .of_tickets rfl fun _ => List.mem_of_mem_tail
  exact Leads.after Scheduler.Undisturbed.trans moved
    ((Scheduler.onTotals_still _ _).mono fun _ => .of_still)

theorem startWhile_undisturbed {π : Type} {slots : Nat} {test : AdmissionTest π} :
    ∀ (list : List RequestId) (notes : π) (c : Cluster),
      Leads Undisturbed (startWhile slots test notes list) c
  | [], _, c => .refl c
  | id :: rest, notes, c => by
      refine startWhile_rule (fun _ => .refl c) (fun _ => .refl c) (fun _ _ _ _ => .refl c)
        fun ticket later _ _ _ => ?_
      refine Meets.mono (start_undisturbed id c) (fun _ d undisturbed => ?_)
        fun _ _ undisturbed => undisturbed
      exact Leads.after Undisturbed.trans undisturbed (startWhile_undisturbed rest later d)

/-- **The end of a running request** concerns nobody who waits. -/
theorem reclaimOne_undisturbed (tidy : c.scheduler.Tidy) (id : RequestId) :
    Leads Undisturbed (reclaimOne id) c := by
  unfold reclaimOne
  rw [Leads, meets_bind, meets_get]
  split
  · rename_i runs
    refine find_leads (.refl c) fun ticket _ => ?_
    cases ticket.primary.sequence with
    | none => exact .refl c
    | some sequence =>
        have left : c.Undisturbed { c with scheduler :=
            { c.scheduler with running := c.scheduler.running.erase id } } :=
          .of_tickets rfl (List.Subset.refl _)
        have forgotten : ∀ replicas, c.Undisturbed { c with
            replicas := replicas
            scheduler := { c.scheduler with
              running := c.scheduler.running.erase id
              tickets := c.scheduler.tickets.erase id } } := fun replicas =>
          left.trans (.forget (tidy.not_waiting runs))
        rw [Leads]
        dsimp only
        rw [meets_bind, meets_modifyScheduler, meets_bind, meets_onReplicas]
        refine (Meets.anyhow _ _).mono (fun _ replicas _ => ?_) (fun _ _ _ => left)
        rw [meets_bind, meets_modifyScheduler]
        refine Leads.after Undisturbed.trans (forgotten replicas) ?_
        exact (onStill_undisturbed (Scheduler.recycle_still _ _)).bind Undisturbed.trans
          fun _ _ _ => onStill_undisturbed (Scheduler.onTotals_still _ _)
  · exact .refl c

theorem reclaim_undisturbed (tidy : c.scheduler.Tidy) (ids : List RequestId) :
    Leads Undisturbed (reclaim ids) c := by
  unfold reclaim
  have both : Meets (ids.forM reclaimOne) c
      (fun _ d => d.scheduler.Tidy ∧ c.Undisturbed d) (fun _ d => c.Undisturbed d) := by
    refine Meets.forM (fun _ d => d.scheduler.Tidy ∧ c.Undisturbed d) ?_ ids c ⟨tidy, .refl c⟩
    rintro id rest d ⟨tidy, led⟩
    exact ((reclaimOne_forward tidy id).and (reclaimOne_undisturbed tidy id)).mono
      (fun _ _ ended => ⟨ended.1.1.tidy, led.trans ended.2⟩) fun _ _ ended => led.trans ended.2
  exact both.mono (fun _ _ ended => ended.2) fun _ _ led => led

/-- Reports count what was reported, and change nothing else. -/
theorem report_undisturbed {tokenizer : Tokenizer} {maxLength : Nat} :
    ∀ (ids : List RequestId) (c : Cluster), Leads Undisturbed (report tokenizer maxLength ids) c
  | [], c => .refl c
  | id :: rest, c => by
      refine report_rule (fun _ => .refl c) (fun _ _ _ _ => .refl c)
        fun ticket delta next found reported => ?_
      have kept := ((Ticket.reports_of_report ticket tokenizer maxLength).of_ok reported).reported
      have put : c.Undisturbed { c with scheduler :=
          { c.scheduler with tickets := c.scheduler.tickets.insert id next } } :=
        Scheduler.Undisturbed.put found kept.request fun _ => kept.buffers
      exact Leads.after Undisturbed.trans put (report_undisturbed rest _)

theorem process_undisturbed (tidy : c.scheduler.Tidy) (ids : List RequestId)
    (tokenizer : Tokenizer) (maxLength : Nat) :
    Leads Undisturbed (process ids tokenizer maxLength) c := by
  rw [Leads, meets_process]
  have spares : Leads (Spares none) (report tokenizer maxLength ids) c := report_spares ids c tidy
  refine (Meets.and spares (report_undisturbed ids c)).mono ?_ (fun _ _ both => both.2)
  rintro batch d ⟨spares, led⟩
  have tidy : ({ d with delivered := d.delivered ++ [batch] } : Cluster).scheduler.Tidy :=
    spares.tidy
  exact Leads.after Undisturbed.trans led (reclaim_undisturbed tidy _)

/-! ### Preemptions -/

/-- **A preemption** rewinds its victim, which waits at the front. A victim that cannot be sent back
runs on, so that whoever waits is undisturbed. -/
theorem preempt_rewinds (idle : id ∉ c.scheduler.waiting) :
    Meets (preempt id) c
      (fun _ d => ∃ ticket, c.scheduler.tickets.get? id = some ticket ∧
        d.scheduler.waiting = id :: c.scheduler.waiting ∧
        d.scheduler.tickets = c.scheduler.tickets.insert id ticket.rewound)
      (fun _ d => c.Undisturbed d) := by
  unfold preempt
  rw [meets_bind, meets_find]
  cases found : c.scheduler.tickets.get? id with
  | none =>
      rw [Scheduler.ticketOf_of_absent found]
      exact .refl c
  | some ticket =>
      rw [Scheduler.ticketOf_of_found found, yields_ok, meets_bind, meets_liftM]
      refine (checkFed_yields id ticket.lanes).mono (fun _ _ => ?_) (fun _ _ => .refl c)
      cases ticket.primary.sequence with
      | none => exact .refl c
      | some sequence =>
          rw [meets_bind, meets_record, meets_bind, meets_liftM]
          refine (occupiedLength_yields ticket).mono (fun length _ => ?_) (fun _ _ => .refl c)
          have released : ∀ totals, c.scheduler.Undisturbed { c.scheduler with totals := totals } :=
            fun _ => .of_still ⟨rfl, rfl, rfl, rfl⟩
          rw [meets_bind, meets_onScheduler, Scheduler.meets_onTotals]
          refine (Meets.anyhow _ _).mono (fun _ totals _ => ?_) (fun _ totals _ => released totals)
          rw [meets_bind, meets_put, meets_bind, meets_onReplicas]
          refine (Meets.anyhow _ _).mono (fun _ replicas _ => ?_) (fun _ _ _ => ?_)
          · rw [meets_modifyScheduler]
            exact ⟨ticket, rfl, rfl, rfl⟩
          · exact (released totals).trans (.put found rfl fun waits => absurd waits idle)

/-! ### Operations -/

/-- Whether an operation lets nobody come to wait. -/
def Operation.Leaves : Operation → Prop
  | .add _ | .preemptLast => False
  | _ => True

/-- **Any other operation** leaves the waiting requests undisturbed. -/
theorem Operation.undisturbed (tidy : c.scheduler.Tidy) {operation : Operation}
    (leaves : operation.Leaves) (permitted : operation.permitted c) :
    Leads Undisturbed operation.run c := by
  cases operation with
  | add request => exact leaves.elim
  | preemptLast => exact leaves.elim
  | start slots accepts notes =>
      unfold Operation.run
      rw [Leads, meets_discard]
      exact startWhile_undisturbed c.scheduler.waiting notes c
  | changeLane id replica change =>
      have runs : id ∈ c.scheduler.running := List.contains_iff_mem.mp permitted
      exact find_leads (.refl c) fun ticket found =>
        Scheduler.Undisturbed.put found Ticket.request_modifyLane fun waits =>
          absurd waits (tidy.not_waiting runs)
  | commit id replica sample =>
      exact onScheduler_undisturbed (Scheduler.commit_undisturbed tidy replica sample)
  | markPrefilled id =>
      exact onScheduler_undisturbed
        (Scheduler.find_leads (.refl _) fun _ found => .put found rfl fun _ => rfl)
  | abort id => exact onScheduler_undisturbed (Scheduler.abort_undisturbed tidy id)
  | process ids tokenizer maxLength =>
      unfold Operation.run
      rw [Leads, meets_discard]
      exact process_undisturbed tidy ids tokenizer maxLength
  | reclaim ids => exact reclaim_undisturbed tidy ids
  | forward place sequence chunks =>
      unfold Operation.run
      rw [Leads, meets_discard]
      exact onReplicas_undisturbed _ c

/-! ### Histories -/

/-- The request that was submitted last under each id, and how often it was preempted since. -/
abbrev Log := RequestId → Option (Request × Nat)

/-- The log after an operation that is carried out. -/
def Operation.entered (c : Cluster) (log : Log) : Operation → Log
  | .add request => Function.update log request.id (some (request, 0))
  | .preemptLast =>
    match c.scheduler.victim? with
    | some id => Function.update log id ((log id).map fun entry => (entry.1, entry.2 + 1))
    | none => log
  | _ => log

/-- The log after a history, in which refused operations do not count. -/
def logged (c : Cluster) (log : Log) : List Operation → Log
  | [] => log
  | operation :: rest =>
    match operation.run c with
    | .ok _ d => d.logged (operation.entered c log) rest
    | .error _ d => d.logged log rest

/-- Everybody who is known is in the log, and whoever waits is prepared as it says. -/
structure Prepared (c : Cluster) (log : Log) : Prop where
  tidy : c.scheduler.Tidy
  known : ∀ id ticket, c.scheduler.tickets.get? id = some ticket →
    ∃ preemptions, log id = some (ticket.request, preemptions)
  lanes : ∀ id ∈ c.scheduler.waiting, ∀ ticket preemptions,
    c.scheduler.tickets.get? id = some ticket → log id = some (ticket.request, preemptions) →
    ∀ lane ∈ ticket.lanes, lane.Prepared ticket.request preemptions

namespace Prepared

variable {log : Log}

theorem ofReplicas (replicas : List Replica) (lanes : Nat) (ids : SequenceIds) (log : Log) :
    (ofReplicas replicas lanes ids).Prepared log where
  tidy := Scheduler.tidy_ofSize lanes ids
  known := fun _ _ found => by cases found
  lanes := fun _ waits => by cases waits

theorem undisturbed (prepared : c.Prepared log) (led : c.Undisturbed d)
    (tidy : d.scheduler.Tidy) : d.Prepared log where
  tidy := tidy
  known := fun id new found => by
    obtain ⟨ticket, here, same⟩ := led.requests found
    rw [same]
    exact prepared.known id ticket here
  lanes := fun id waits new preemptions found entry => by
    have same := led.buffers id waits
    rw [Scheduler.buffers?, Scheduler.buffers?, found] at same
    obtain ⟨ticket, here, buffers⟩ := Option.map_eq_some_iff.mp same.symm
    rw [show new.request = ticket.request from congrArg Prod.fst buffers.symm] at entry
    exact Ticket.prepared_of_buffers buffers.symm
      (prepared.lanes id (led.waits waits) ticket preemptions here entry)

/-- One request comes to wait, prepared, and is entered into the log. -/
theorem enters (prepared : c.Prepared log) {new : Ticket} {preemptions : Nat}
    (tidy : d.scheduler.Tidy) (tickets : d.scheduler.tickets = c.scheduler.tickets.insert id new)
    (waits : ∀ other ∈ d.scheduler.waiting, other = id ∨ other ∈ c.scheduler.waiting)
    (lanes : ∀ lane ∈ new.lanes, lane.Prepared new.request preemptions) :
    d.Prepared (Function.update log id (some (new.request, preemptions))) := by
  refine ⟨tidy, fun other ticket found => ?_, fun other queued ticket count found entry => ?_⟩
  · rw [tickets, Registry.get?_insert] at found
    rw [Function.update_apply]
    split at found
    · rename_i same
      cases found
      exact ⟨preemptions, if_pos same⟩
    · rename_i differ
      rw [if_neg differ]
      exact prepared.known other ticket found
  · rw [tickets, Registry.get?_insert] at found
    rw [Function.update_apply] at entry
    split at found
    · rename_i same
      cases found
      rw [if_pos same] at entry
      cases entry
      exact lanes
    · rename_i differ
      rw [if_neg differ] at entry
      exact prepared.lanes other ((waits other queued).resolve_left differ) ticket count found entry

/-- **One operation**: a request that comes to wait is prepared, and the others are left alone. -/
theorem run_meets (prepared : c.Prepared log) {operation : Operation}
    (permitted : operation.permitted c) :
    Meets operation.run c
      (fun _ d => d.scheduler.Tidy → d.Prepared (operation.entered c log))
      (fun _ d => d.scheduler.Tidy → d.Prepared log) := by
  cases operation with
  | add request =>
      unfold Operation.run
      rw [meets_onScheduler]
      refine (Scheduler.add_meets request c.scheduler).mono ?_ ?_
      · rintro _ _ ⟨_, _, rfl⟩ tidy
        refine prepared.enters tidy rfl (fun other queued => ?_) fun lane member => ?_
        · exact (List.mem_append.mp queued).symm.imp_left List.mem_singleton.mp
        · obtain ⟨place, rfl⟩ := Ticket.lanes_ofRequest member
          exact ⟨rfl, fun _ => ⟨rfl, rfl⟩, fun preempted => absurd rfl preempted⟩
      · rintro _ _ ⟨rfl, _⟩ tidy
        exact prepared.undisturbed (.refl c) tidy
  | preemptLast =>
      unfold Operation.run
      rw [meets_discard]
      refine preemptLast_rule (fun _ => prepared.undisturbed (.refl c)) fun id victim => ?_
      have runs := Scheduler.victim?_mem_running victim
      refine (preempt_rewinds (prepared.tidy.not_waiting runs)).mono ?_
        (fun _ _ led => prepared.undisturbed led)
      rintro _ d ⟨ticket, found, waiting, tickets⟩ tidy
      obtain ⟨preemptions, entry⟩ := prepared.known id ticket found
      have entered : Operation.entered c log .preemptLast =
          Function.update log id (some (ticket.rewound.request, preemptions + 1)) := by
        simp only [Operation.entered, victim, entry, Option.map_some]
        rfl
      rw [entered]
      refine prepared.enters tidy tickets (fun other queued => ?_) fun lane member => ?_
      · rw [waiting] at queued
        exact List.mem_cons.mp queued
      · rw [Ticket.rewound, Ticket.lanes_mapLanes] at member
        obtain ⟨old, _, rfl⟩ := List.mem_map.mp member
        exact ⟨rfl, fun never => absurd never (Nat.succ_ne_zero _), fun _ => rfl⟩
  | _ =>
      exact Meets.mono (Operation.undisturbed prepared.tidy trivial permitted)
        (fun _ _ led => prepared.undisturbed led) fun _ _ led => prepared.undisturbed led

/-- **A history.** -/
theorem after {history : List Operation} (prepared : c.Prepared log)
    (ended : c.after history = some d) : d.Prepared (c.logged log history) := by
  induction history generalizing c log with
  | nil =>
      cases ended
      exact prepared
  | cons operation rest ih =>
      obtain ⟨e, first, later⟩ := Option.bind_eq_some_iff.mp ended
      have tidy := (operation.follows_of_after prepared.tidy first).tidy
      have meets := prepared.run_meets (operation.permitted_of_after first)
      rcases operation.run_of_after first with run | ⟨cause, run⟩
      · rw [meets_iff_of_ok run] at meets
        rw [logged, run]
        exact ih (meets tidy) later
      · rw [logged, run]
        exact ih (meets.of_error run tidy) later

end Prepared

/-- **Waiting requests over any history.** Start without requests, with any replicas, and let any
operations be carried out or refused, in any order, but the buffers of a lane be changed only while
its request runs. On each lane of a request that waits nothing is proposed. If the request was never
preempted since it was submitted, its input is pending and nothing is committed. Otherwise the input
followed by the lane's own tokens is pending. -/
theorem prepared_after {replicas : List Replica} {lanes : Nat} {ids : SequenceIds}
    {history : List Operation} (ended : (ofReplicas replicas lanes ids).after history = some c)
    (waits : id ∈ c.scheduler.waiting) :
    ∃ ticket preemptions, c.scheduler.tickets.get? id = some ticket ∧
      (ofReplicas replicas lanes ids).logged (fun _ => none) history id =
        some (ticket.request, preemptions) ∧
      ∀ lane ∈ ticket.lanes, lane.drafts = [] ∧
        (preemptions = 0 → lane.pending = ticket.request.inputs ∧ lane.committed = []) ∧
        (preemptions ≠ 0 → lane.pending = replay ticket.request.inputs lane.committedTokens ∧
          Replays ticket.request.inputs lane.committedTokens lane.pending) := by
  have prepared := (Prepared.ofReplicas replicas lanes ids fun _ => none).after ended
  obtain ⟨ticket, found⟩ := Registry.mem_keys_iff.mp
    (prepared.tidy.known id (List.mem_append_right _ waits))
  obtain ⟨preemptions, entry⟩ := prepared.known id ticket found
  refine ⟨ticket, preemptions, found, entry, fun lane member => ?_⟩
  obtain ⟨drafts, fresh, again⟩ :=
    prepared.lanes id waits ticket preemptions found entry lane member
  refine ⟨drafts, fresh, fun preempted => ⟨again preempted, ?_⟩⟩
  rw [again preempted]
  exact replays_replay ticket.request.inputs lane.committedTokens

/-- A history in which a request that ends in an embedding is preempted twice, with two tokens on
each of its lanes, one of which got them in one turn. -/
def rewindingHistory : List Operation :=
  let accept : Operation := .start 1 (fun _ _ _ => (true, ())) ()
  [.add ⟨"a", [.tokens [1, 2], .embedding "image" 2], .usual⟩, accept,
    .changeLane "a" 0 .takeInputs, .changeLane "a" 1 .takeInputs, .commit "a" 0 (.plain 5 .one),
    .commit "a" 0 (.plain 6 .one), .commit "a" 1 (.plain 7 .one),
    .changeLane "a" 1 (.draft (.plain 9 .one)), .preemptLast, accept,
    .changeLane "a" 0 .takeInputs, .changeLane "a" 1 .takeInputs, .commit "a" 1 (.plain 8 .one),
    .preemptLast]

theorem prepared_after_rewindingHistory :
    ∃ c, (ofReplicas [.paged (.ofSize "first" 4 2 countTokens),
        .paged (.ofSize "second" 2 3 countTokens)] 2 (.ofCapacity 2)).after rewindingHistory =
        some c ∧
      "a" ∈ c.scheduler.waiting ∧
      ∃ ticket preemptions, c.scheduler.tickets.get? "a" = some ticket ∧
        preemptions = 2 ∧ ticket.lanes.map Lane.committedTokens = [[5, 6], [7, 8]] ∧
        ∀ lane ∈ ticket.lanes, lane.drafts = [] ∧
          (preemptions = 0 → lane.pending = ticket.request.inputs ∧ lane.committed = []) ∧
          (preemptions ≠ 0 → lane.pending = replay ticket.request.inputs lane.committedTokens ∧
            Replays ticket.request.inputs lane.committedTokens lane.pending) := by
  let start := ofReplicas [.paged (.ofSize "first" 4 2 countTokens),
    .paged (.ofSize "second" 2 3 countTokens)] 2 (.ofCapacity 2)
  have state : (start.after rewindingHistory).map (fun c => (c.scheduler.waiting,
      (c.scheduler.tickets.get? "a").map fun ticket => ticket.lanes.map Lane.committedTokens)) =
      some (["a"], some [[5, 6], [7, 8]]) := by
    decide +kernel
  have twice : (start.logged (fun _ => none) rewindingHistory "a").map Prod.snd = some 2 := by
    decide +kernel
  obtain ⟨c, ended, same⟩ := Option.map_eq_some_iff.mp state
  obtain ⟨waiting, tokens⟩ := Prod.mk.inj same
  have waits : "a" ∈ c.scheduler.waiting := by
    rw [waiting]
    exact List.mem_cons_self
  obtain ⟨ticket, preemptions, found, entry, lanes⟩ := prepared_after ended waits
  rw [entry] at twice
  rw [found] at tokens
  exact ⟨c, ended, waits, ticket, preemptions, found, Option.some.inj twice,
    Option.some.inj tokens, lanes⟩

end Cluster

end ContinuousBatching
