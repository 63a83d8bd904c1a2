/-
**Whatever is asked of a cluster, it stays in order.**

A `Cluster.Operation` is anything that a caller can ask of a scheduler and its caches, with
arguments of any kind; only the buffers of a request's lanes are left alone while it does not run
(`Operation.permitted`). A history is a list of operations, and it goes on after a refusal with
whatever the refused operation left behind (`Cluster.after`).

* `Scheduler.Change`: the changes that operations make to the bookkeeping, one at a time;
* `Operation.keeps`: a cluster that is in order before an operation comes into its next state by
  such changes and is in order afterwards, also if the operation was refused, and no operation
  breaks an assertion;
* `Cluster.owned_after`: so a cluster that starts without requests and with fresh caches is in order
  after every history.
-/

import ContinuousBatching.Proofs.Request.Report
import ContinuousBatching.Proofs.Scheduler.Operations

namespace ContinuousBatching

/-- One change of the bookkeeping. -/
inductive Scheduler.Change (s : Scheduler) : Scheduler → Prop
  /-- A ticket is replaced by one with the same sequence. -/
  | put {id : RequestId} {ticket new : Ticket} {totals : Totals}
    (found : s.tickets.get? id = some ticket)
    (same : new.primary.sequence = ticket.primary.sequence) :
    s.Change { s with tickets := s.tickets.insert id new, totals := totals }
  | added {request : Request} (fresh : request.id ∉ s.tickets.keys) :
    s.Change (s.added request.id (.ofRequest request s.laneCount))
  | started {id : RequestId} {rest : List RequestId} {ticket : Ticket} {sequence : SequenceId}
    {ids : SequenceIds} (front : s.waiting = id :: rest) (found : s.tickets.get? id = some ticket)
    (capacity : ids.capacity = s.ids.capacity) : s.Change (s.started id ticket sequence ids)
  | preempted {id : RequestId} {ticket : Ticket} (runs : id ∈ s.running)
    (found : s.tickets.get? id = some ticket) : s.Change (s.preempted id ticket)
  | dropped {id : RequestId} {ids : SequenceIds} (waits : id ∈ s.waiting)
    (frees : s.Frees id ids) : s.Change (s.dropped id ids)
  | ended {id : RequestId} {ticket : Ticket} {ids : SequenceIds} (runs : id ∈ s.running)
    (found : s.tickets.get? id = some ticket) (frees : s.Frees id ids) :
    s.Change (s.ended id ticket ids)

namespace Cluster

/-- What a caller can do to the buffers of a lane. -/
inductive LaneChange where
  | takeInputs
  | draft (sample : Sample)
  | dropDrafts (count : Nat)
  | clearDrafts

/-- The lane after a change. -/
def LaneChange.apply : LaneChange → Lane → Lane
  | .takeInputs, lane => lane.fed
  | .draft sample, lane => lane.draft sample
  | .dropDrafts count, lane => lane.dropDrafts count
  | .clearDrafts, lane => lane.clearDrafts

/-- What can be asked of a scheduler and its caches. -/
inductive Operation : Type 1 where
  | add (request : Request)
  /-- Admits waiting requests that a predicate accepts, which may keep notes. -/
  | start {π : Type} (slots : Nat) (accepts : π → Ticket → List Replica → Bool × π) (notes : π)
  | changeLane (id : RequestId) (replica : Nat) (change : LaneChange)
  | commit (id : RequestId) (replica : Nat) (sample : Sample)
  | markPrefilled (id : RequestId)
  | abort (id : RequestId)
  | preemptLast
  | process (ids : List RequestId) (tokenizer : Tokenizer) (maxLength : Nat)
  | reclaim (ids : List RequestId)
  /-- Feeds a sequence in the cache at a place, past the scheduler. -/
  | forward (place : Nat) (sequence : SequenceId) (chunks : List Chunk)

namespace Operation

/-- Carries an operation out. -/
def run : Operation → Action Cluster Unit
  | .add request => onScheduler (Scheduler.add request)
  | .start slots accepts notes =>
    discard (startWaiting slots (fun notes ticket replicas => .ok (accepts notes ticket replicas))
      notes)
  | .changeLane id replica change => do
    put id ((← find id).modifyLane replica change.apply)
  | .commit id replica sample => onScheduler (Scheduler.commit id replica sample)
  | .markPrefilled id => onScheduler (Scheduler.markPrefilled id)
  | .abort id => onScheduler (Scheduler.abort id)
  | .preemptLast => discard Cluster.preemptLast
  | .process ids tokenizer maxLength => discard (Cluster.process ids tokenizer maxLength)
  | .reclaim ids => Cluster.reclaim ids
  | .forward place sequence chunks =>
    discard (onReplicas (onReplica place (Replica.forward sequence chunks)))

/-- The buffers of a lane are only changed while its request runs. -/
def permitted (c : Cluster) : Operation → Bool
  | .changeLane id _ _ => c.scheduler.running.contains id
  | _ => true

/-- The cluster after an operation that was permitted, carried out or refused. -/
def after (c : Cluster) (operation : Operation) : Option Cluster :=
  if operation.permitted c then
    match operation.run c with
    | .ok _ d => some d
    | .error (.refused _) d => some d
    | .error (.fault _) _ => none
  else none

end Operation

/-- The cluster after a history, if nothing in it faulted. -/
def after (c : Cluster) : List Operation → Option Cluster
  | [] => some c
  | operation :: rest => (operation.after c).bind fun d => d.after rest

/-- The cluster is in order, with some caches. -/
def InOrder (c : Cluster) : Prop := ∃ caches, c.Owned caches

/-- The cluster is in order after changes of the bookkeeping that each found it consistent. -/
structure Evolves (c d : Cluster) : Prop where
  inOrder : d.InOrder
  changes : Relation.ReflTransGen (fun s t => s.Consistent ∧ s.Change t) c.scheduler d.scheduler

/-- Stopping does no harm: after a refusal the cluster is in order, and no assertion breaks. -/
def Spared (c : Cluster) (stop : Stop) (d : Cluster) : Prop :=
  match stop with
  | .refused _ => c.Evolves d
  | .fault kind => kind ≠ .assertion

variable {c d e : Cluster} {caches caches' : List PagedCache} {id : RequestId} {stop : Stop}

namespace Evolves

/-- Nothing has changed in the bookkeeping. -/
theorem still (owned : d.Owned caches) (scheduler : d.scheduler = c.scheduler) : c.Evolves d :=
  ⟨⟨caches, owned⟩, scheduler ▸ .refl⟩

theorem refl (owned : c.Owned caches) : c.Evolves c := still owned rfl

theorem step (owned : c.Owned caches) (change : c.scheduler.Change d.scheduler)
    (kept : d.Owned caches') : c.Evolves d :=
  ⟨⟨caches', kept⟩, .single ⟨owned.consistent, change⟩⟩

theorem trans (first : c.Evolves d) (second : d.Evolves e) : c.Evolves e :=
  ⟨second.inOrder, first.changes.trans second.changes⟩

end Evolves

namespace Spared

theorem of_owned (owned : c.Owned caches) (kept : stop ≠ .fault .assertion) : c.Spared stop c := by
  cases stop with
  | refused cause => exact .refl owned
  | fault kind => exact fun broken => kept (broken ▸ rfl)

theorem of_plain (owned : c.Owned caches) (plain : stop.Plain) : c.Spared stop c := by
  refine of_owned owned ?_
  rintro rfl
  rcases plain with overflow | ⟨_, refused⟩
  · cases overflow
  · cases refused

/-- What stops after an evolution does no harm, either. -/
theorem after (evolves : c.Evolves d) (spared : d.Spared stop e) : c.Spared stop e := by
  cases stop with
  | refused cause => exact evolves.trans spared
  | fault kind => exact spared

end Spared

/-! ### Each operation keeps the order -/

theorem add_keeps (owned : c.Owned caches) (request : Request) :
    Meets (onScheduler (Scheduler.add request)) c (fun _ d => c.Evolves d) c.Spared := by
  rw [meets_onScheduler]
  refine (Scheduler.add_meets request c.scheduler).mono ?_ ?_
  · rintro _ _ ⟨fresh, _, rfl⟩
    have consistent := owned.consistent.added fresh
      (Ticket.alike_ofRequest request c.scheduler.laneCount) rfl
    refine .step owned (.added fresh) (owned.of_scheduler rfl consistent rfl fun other runs => ?_)
    have differ : other ≠ request.id := by
      rintro rfl
      exact fresh ((owned.consistent.known _).mp (List.mem_append_left _ runs))
    show (c.scheduler.added request.id _).sequenceOf? other = _
    rw [Scheduler.sequenceOf?_of_insert rfl, if_neg differ]
  · rintro _ _ ⟨rfl, ⟨rfl, _⟩ | ⟨rfl, _⟩ | ⟨rfl, _⟩⟩
    · exact Evolves.refl owned
    · exact Evolves.refl owned
    · exact Fault.noConfusion

/-- A ticket is replaced by one with the same sequence that occupies as much. -/
theorem put_keeps {ticket new : Ticket} (owned : c.Owned caches)
    (found : c.scheduler.tickets.get? id = some ticket) (alike : new.Alike)
    (same : new.primary.sequence = ticket.primary.sequence)
    (occupied : new.occupied = ticket.occupied) :
    c.Evolves { c with
      scheduler := { c.scheduler with tickets := c.scheduler.tickets.insert id new } } :=
  .step owned (.put found same)
    (owned.put found same rfl (owned.consistent.put_same found alike same occupied) rfl rfl)

theorem LaneChange.kept (change : LaneChange) (lane : Lane) :
    (change.apply lane).sequence = lane.sequence ∧
      (change.apply lane).committed = lane.committed := by
  cases change <;> exact ⟨rfl, rfl⟩

theorem changeLane_keeps (owned : c.Owned caches) (replica : Nat) (change : LaneChange) :
    Meets (Operation.run (.changeLane id replica change)) c (fun _ d => c.Evolves d)
      c.Spared := by
  unfold Operation.run
  rw [meets_bind, meets_find]
  cases found : c.scheduler.tickets.get? id with
  | none =>
      rw [Scheduler.ticketOf_of_absent found]
      exact Evolves.refl owned
  | some ticket =>
      rw [Scheduler.ticketOf_of_found found, yields_ok, meets_put]
      have sequence := fun lane => (change.kept lane).1
      have same : (ticket.modifyLane replica change.apply).primary.sequence =
          ticket.primary.sequence := Ticket.primary_modifyLane_sequence sequence
      exact put_keeps owned found ((owned.consistent.alike id ticket found).modifyLane sequence)
        same (Ticket.occupied_modifyLane fun _ => (change.kept _).2)

theorem commit_keeps (owned : c.Owned caches) (replica : Nat) (sample : Sample) :
    Meets (onScheduler (Scheduler.commit id replica sample)) c (fun _ d => c.Evolves d)
      c.Spared := by
  rw [meets_onScheduler]
  refine (Scheduler.commit_meets owned.consistent id replica sample).mono ?_ ?_
  · rintro _ _ ⟨ticket, runs, found, countable, rfl⟩
    have kept : ∀ lane : Lane, (lane.commit sample).sequence = lane.sequence := fun _ => rfl
    have same : (ticket.modifyLane replica (Lane.commit · sample)).primary.sequence =
        ticket.primary.sequence := Ticket.primary_modifyLane_sequence kept
    exact .step owned (.put found same)
      (owned.put found same rfl (owned.consistent.committed runs found countable) rfl rfl)
  · rintro _ _ (⟨rfl, ⟨rfl, _⟩ | ⟨rfl, _⟩⟩ | ⟨rfl, _⟩)
    · exact Evolves.refl owned
    · exact Evolves.refl owned
    · exact Fault.noConfusion

theorem markPrefilled_keeps (owned : c.Owned caches) :
    Meets (onScheduler (Scheduler.markPrefilled id)) c (fun _ d => c.Evolves d) c.Spared := by
  rw [meets_onScheduler, Scheduler.markPrefilled, meets_bind, Scheduler.meets_find]
  cases found : c.scheduler.tickets.get? id with
  | none =>
      rw [Scheduler.ticketOf_of_absent found]
      exact Evolves.refl owned
  | some ticket =>
      rw [Scheduler.ticketOf_of_found found, yields_ok, Scheduler.meets_put]
      exact put_keeps owned found (owned.consistent.alike id ticket found) rfl rfl

theorem abort_keeps (owned : c.Owned caches) :
    Meets (onScheduler (Scheduler.abort id)) c (fun _ d => c.Evolves d) c.Spared := by
  rw [meets_onScheduler]
  refine (Scheduler.abort_meets owned.consistent id).mono ?_ ?_
  · rintro _ _ (⟨_, ticket, found, rfl⟩ | ⟨waits, ids, frees, rfl⟩)
    · exact put_keeps owned found (owned.consistent.alike id ticket found) rfl rfl
    · refine .step owned (.dropped waits frees) (owned.of_scheduler rfl
        (owned.consistent.dropped waits frees) rfl fun other runs => ?_)
      have differ : other ≠ id := by
        rintro rfl
        exact owned.consistent.not_waiting_of_running runs waits
      show (c.scheduler.dropped id ids).sequenceOf? other = _
      rw [Scheduler.sequenceOf?_of_erase rfl, if_neg differ]
  · rintro _ _ ⟨rfl, rfl, _⟩
    exact Evolves.refl owned

/-- **Admission** by any predicate. The invariant is that the requests still to be looked at are the
waiting ones. -/
theorem startWhile_keeps {π : Type} {slots : Nat}
    {accepts : π → Ticket → List Replica → Bool × π} :
    ∀ (list : List RequestId) (notes : π) (c : Cluster), c.InOrder → c.scheduler.waiting = list →
      Meets (startWhile slots (fun notes ticket replicas => .ok (accepts notes ticket replicas))
        notes list) c (fun _ d => c.Evolves d) c.Spared
  | [], _, _, ⟨_, owned⟩, _ => Evolves.refl owned
  | id :: rest, notes, c, ⟨caches, owned⟩, front => by
      refine owned.startWhile_rule front (fun _ => .refl owned)
        (fun _ _ _ failed => by cases failed) (fun _ _ _ => Evolves.refl owned)
        (fun _ => Fault.noConfusion) ?_
      intro ticket later sequence ids found _ _ capacity _ kept
      have evolves : c.Evolves (c.started caches id ticket sequence ids) :=
        .step owned (.started front found capacity) kept
      exact (startWhile_keeps rest later _ ⟨_, kept⟩ (waiting_started front)).mono
        (fun _ _ more => evolves.trans more) (fun _ _ => Spared.after evolves)

theorem preemptLast_keeps (owned : c.Owned caches) :
    Meets Cluster.preemptLast c (fun _ d => c.Evolves d) c.Spared := by
  refine preemptLast_rule (fun _ => Evolves.refl owned) fun id victim => ?_
  have runs := Scheduler.victim?_mem_running victim
  obtain ⟨ticket, found⟩ := owned.consistent.found_of_running runs
  refine (preempt_meets owned runs found).mono ?_ ?_
  · rintro _ _ ⟨_, _, rfl, kept⟩
    exact .step owned (.preempted runs found) kept
  · rintro _ _ ⟨rfl, _, _, _, rfl⟩
    exact Evolves.refl owned

theorem reclaimOne_keeps (owned : c.Owned caches) :
    Meets (reclaimOne id) c (fun _ d => c.Evolves d) c.Spared := by
  by_cases runs : id ∈ c.scheduler.running
  · obtain ⟨ticket, found⟩ := owned.consistent.found_of_running runs
    refine (reclaimOne_meets owned runs found).mono ?_ ?_
    · rintro _ _ ⟨_, _, _, frees, rfl, kept, _⟩
      exact .step owned (.ended runs found frees) kept
    · rintro _ _ ⟨rfl, _⟩
      exact Fault.noConfusion
  · unfold reclaimOne
    rw [meets_bind, meets_get, if_neg runs]
    exact Evolves.refl owned

theorem reclaim_keeps (owned : c.Owned caches) (ids : List RequestId) :
    Meets (Cluster.reclaim ids) c (fun _ d => c.Evolves d) c.Spared := by
  unfold Cluster.reclaim
  refine Meets.forM (fun _ d => c.Evolves d) (fun id _ d evolves => ?_) ids c (.refl owned)
  obtain ⟨_, owned⟩ := evolves.inOrder
  exact (reclaimOne_keeps owned).mono (fun _ _ more => evolves.trans more)
    fun _ _ => Spared.after evolves

/-- A ticket that was reported from is replaced. -/
theorem reported_keeps {ticket next : Ticket} (owned : c.Owned caches)
    (found : c.scheduler.tickets.get? id = some ticket) (reported : ticket.Reported next) :
    c.Evolves { c with
      scheduler := { c.scheduler with tickets := c.scheduler.tickets.insert id next } } := by
  have primary := reported.primary
  have lanes : next.lanes = ticket.lanes := by
    rw [Ticket.lanes, Ticket.lanes, primary, reported.others]
  have alike : next.Alike := by
    intro lane member
    rw [primary]
    exact owned.consistent.alike id ticket found lane (lanes ▸ member)
  have occupied : next.occupied = ticket.occupied := by
    rw [Ticket.occupied, Ticket.occupied, primary, reported.request]
  exact put_keeps owned found alike (by rw [primary]) occupied

theorem report_keeps {tokenizer : Tokenizer} {maxLength : Nat} :
    ∀ (ids : List RequestId) (c : Cluster), c.InOrder →
      Meets (report tokenizer maxLength ids) c (fun _ d => c.Evolves d) c.Spared
  | [], _, ⟨_, owned⟩ => Evolves.refl owned
  | id :: rest, c, ⟨caches, owned⟩ => by
      have report (ticket : Ticket) := Ticket.report_yields ticket tokenizer maxLength
      refine report_rule (fun _ => Evolves.refl owned)
        (fun ticket stop _ failed => Spared.of_plain owned ((report ticket).of_error failed))
        fun ticket delta next found reported => ?_
      have evolves := reported_keeps owned found ((report ticket).of_ok reported)
      exact (report_keeps rest _ evolves.inOrder).mono (fun _ _ more => evolves.trans more)
        (fun _ _ => Spared.after evolves)

theorem process_keeps (owned : c.Owned caches) (ids : List RequestId) (tokenizer : Tokenizer)
    (maxLength : Nat) :
    Meets (Cluster.process ids tokenizer maxLength) c (fun _ d => c.Evolves d) c.Spared := by
  rw [meets_process]
  refine (report_keeps ids c ⟨caches, owned⟩).mono (fun batch d evolves => ?_)
    (fun _ _ spared => spared)
  obtain ⟨_, owned⟩ := evolves.inOrder
  have delivered : Owned { d with delivered := d.delivered ++ [batch] } _ := owned.congr rfl rfl
  replace evolves := evolves.trans (.still delivered rfl)
  exact (reclaim_keeps delivered _).mono (fun _ _ more => evolves.trans more)
    fun _ _ => Spared.after evolves

theorem forward_keeps (owned : c.Owned caches) (place : Nat) (sequence : SequenceId)
    (chunks : List Chunk) :
    Meets (onReplicas (onReplica place (Replica.forward sequence chunks))) c
      (fun _ d => c.Evolves d) c.Spared := by
  rw [meets_onReplicas, owned.replicas]
  cases there : caches[place]? with
  | none =>
      unfold Meets
      rw [onReplica_out_of_range there]
      exact Fault.noConfusion
  | some cache =>
      rw [meets_onReplica_forward there]
      have unchanged : Owned { c with replicas := (caches.set place cache).map .paged } caches := by
        obtain ⟨bound, same⟩ := List.getElem?_eq_some_iff.mp there
        rw [← same, List.set_getElem_self bound]
        exact owned.congr owned.replicas.symm rfl
      cases found : cache.sequences.get? sequence with
      | none =>
          unfold Meets
          rw [PagedCache.forward_of_absent found]
          exact Evolves.still unchanged rfl
      | some fed =>
          refine (PagedCache.forward_meets found chunks).mono ?_ ?_
          · rintro _ _ ⟨enough, _, rfl⟩
            exact .still (owned.written there found enough rfl rfl) rfl
          · rintro _ _ (⟨rfl, rfl, _⟩ | ⟨rfl, _⟩ | ⟨rfl, _⟩)
            · exact Evolves.still unchanged rfl
            · exact Fault.noConfusion
            · exact Fault.noConfusion

/-! ### Histories -/

/-- **One operation.** A cluster in order evolves and stays in order, whether the operation is
carried out or refused, and no assertion breaks. -/
theorem Operation.keeps (inOrder : c.InOrder) (operation : Operation) :
    Meets operation.run c (fun _ d => c.Evolves d) c.Spared := by
  obtain ⟨caches, owned⟩ := inOrder
  cases operation with
  | add request => exact add_keeps owned request
  | start slots accepts notes =>
      unfold Operation.run
      rw [meets_discard]
      exact startWhile_keeps c.scheduler.waiting notes c ⟨caches, owned⟩ rfl
  | changeLane id replica change => exact changeLane_keeps owned replica change
  | commit id replica sample => exact commit_keeps owned replica sample
  | markPrefilled id => exact markPrefilled_keeps owned
  | abort id => exact abort_keeps owned
  | preemptLast =>
      unfold Operation.run
      rw [meets_discard]
      exact preemptLast_keeps owned
  | process ids tokenizer maxLength =>
      unfold Operation.run
      rw [meets_discard]
      exact process_keeps owned ids tokenizer maxLength
  | reclaim ids => exact reclaim_keeps owned ids
  | forward place sequence chunks =>
      unfold Operation.run
      rw [meets_discard]
      exact forward_keeps owned place sequence chunks

theorem Operation.evolves_after {operation : Operation} (inOrder : c.InOrder)
    (ended : operation.after c = some d) : c.Evolves d := by
  unfold Operation.after at ended
  split at ended
  · rcases (operation.keeps inOrder).ends with ⟨value, e, run, evolves⟩ | ⟨stop, e, run, spared⟩
    · rw [run] at ended
      cases ended
      exact evolves
    · rw [run] at ended
      cases stop with
      | refused cause =>
          cases ended
          exact spared
      | fault kind => cases ended
  · cases ended

theorem evolves_after (inOrder : c.InOrder) {operations : List Operation}
    (ended : c.after operations = some d) : c.Evolves d := by
  induction operations generalizing c with
  | nil =>
      cases ended
      obtain ⟨_, owned⟩ := inOrder
      exact .refl owned
  | cons operation rest ih =>
      obtain ⟨e, first, later⟩ := Option.bind_eq_some_iff.mp ended
      have evolves := operation.evolves_after inOrder first
      exact evolves.trans (ih evolves.inOrder later)

theorem inOrder_after (inOrder : c.InOrder) {operations : List Operation}
    (ended : c.after operations = some d) : d.InOrder :=
  (evolves_after inOrder ended).inOrder

/-- A cluster without requests and with fresh caches is in order. -/
theorem owned_ofReplicas (fresh : ∀ cache ∈ caches, cache.IsFresh) (lanes capacity : Nat) :
    (ofReplicas (caches.map .paged) lanes (.ofCapacity capacity)).Owned caches where
  replicas := rfl
  consistent := Scheduler.Consistent.ofSize lanes capacity
  sound := fun cache member => by
    rw [fresh cache member]
    exact PagedCache.ofSize_sound ..
  registered := fun cache member sequence => by
    rw [fresh cache member]
    constructor
    · intro held
      cases held
    · rintro ⟨_, runs, _⟩
      cases runs

/-- **Ownership over any history.** Start without requests and with fresh caches, and let any
operations be carried out or refused, in any order: the bookkeeping is consistent, each cache is
sound and holds exactly the sequences of the running requests, and no operation that comes next
breaks an assertion. -/
theorem owned_after {capacity lanes : Nat} (fresh : ∀ cache ∈ caches, cache.IsFresh)
    {operations : List Operation}
    (ended : (ofReplicas (caches.map .paged) lanes (.ofCapacity capacity)).after operations =
      some c) :
    (∃ caches, c.Owned caches) ∧
      ∀ (operation : Operation) (d : Cluster), operation.run c ≠ .error (.fault .assertion) d := by
  have inOrder := inOrder_after ⟨caches, owned_ofReplicas fresh lanes capacity⟩ ended
  refine ⟨inOrder, fun operation d broken => ?_⟩
  exact (operation.keeps inOrder).of_error broken rfl

/-- The token of a made-up model: the number of tokens in the context. -/
def countTokens : NextToken := fun context => .plain (UInt32.ofNat context.length) .one

/-- A history in which a request is fed, preempted and refused a token while it waits, and another
one is given up. -/
def mixedHistory : List Operation :=
  let request (id : RequestId) : Request := ⟨id, [.tokens [1, 2, 3]], .usual⟩
  [.add (request "a"), .add (request "b"), .start 2 (fun _ _ _ => (true, ())) (),
    .forward 0 0 [.tokens [1, 2, 3]], .forward 1 0 [.tokens [1, 2, 3]],
    .changeLane "a" 0 .takeInputs, .changeLane "a" 1 .takeInputs,
    .commit "a" 0 (.plain 3 .one), .commit "a" 1 (.plain 3 .one), .abort "b", .preemptLast,
    .commit "a" 0 (.plain 4 .one), .process ["b"] (.bytes none) 10,
    .start 2 (fun _ _ _ => (true, ())) ()]

theorem owned_after_mixedHistory :
    (∀ cache ∈ [PagedCache.ofSize "first" 4 2 countTokens, .ofSize "second" 2 3 countTokens],
      cache.IsFresh) ∧
    ∃ c, (ofReplicas ([PagedCache.ofSize "first" 4 2 countTokens,
        .ofSize "second" 2 3 countTokens].map .paged) 2 (.ofCapacity 2)).after mixedHistory =
        some c ∧
      (∃ caches, c.Owned caches) ∧
        ∀ (operation : Operation) (d : Cluster),
          operation.run c ≠ .error (.fault .assertion) d := by
  have fresh : ∀ cache ∈ [PagedCache.ofSize "first" 4 2 countTokens,
      .ofSize "second" 2 3 countTokens], cache.IsFresh := by
    simp [PagedCache.IsFresh, PagedCache.ofSize, BlockPool.ofSize]
  have ended : ((ofReplicas ([PagedCache.ofSize "first" 4 2 countTokens,
      .ofSize "second" 2 3 countTokens].map .paged) 2 (.ofCapacity 2)).after
      mixedHistory).isSome := by
    decide +kernel
  obtain ⟨c, ended⟩ := Option.isSome_iff_exists.mp ended
  exact ⟨fresh, c, ended, owned_after fresh ended⟩

end Cluster

end ContinuousBatching
