/-
**The line of requests.**

The running requests and then the waiting ones, without those that were given up, form one line
(`Scheduler.line`). Requests start at its front and are preempted from its back, so the line only
ever loses members, apart from a new request, which joins it at the end. This holds whatever the
replicas do: an operation that a replica refuses midway keeps what it did before, and even then the
queues stay tidy.

* `Scheduler.Steady`: nobody moves and nothing is reported; requests may only get more tokens, or be
  given up;
* `Scheduler.Orderly`: requests move along the line or leave it, and nobody is new;
* `Scheduler.Quiet`: besides, nothing is reported;
* `Scheduler.Forward`: besides, nobody is sent back to wait;
* `Quiet.advance`, `Quiet.requeue`, `Quiet.forget`: the moves of a request that starts, is sent back
  to wait, or ends.
-/

import ContinuousBatching.Proofs.Scheduler.Operations

namespace ContinuousBatching

/-- A later stage of a ticket, with nothing reported in between. -/
structure Ticket.Grows (old new : Ticket) : Prop where
  request : new.request = old.request
  committed : old.primary.committed <+: new.primary.committed
  reported : new.reported = old.reported
  finish : new.finish = old.finish
  given : old.abortRequested = true → new.abortRequested = true
  alike : old.Alike → new.Alike

namespace Ticket.Grows

variable {old new newer ticket : Ticket}

theorem refl (ticket : Ticket) : ticket.Grows ticket :=
  ⟨rfl, List.prefix_refl _, rfl, rfl, fun given => given, fun alike => alike⟩

theorem trans (first : old.Grows new) (second : new.Grows newer) : old.Grows newer where
  request := second.request.trans first.request
  committed := first.committed.trans second.committed
  reported := second.reported.trans first.reported
  finish := second.finish.trans first.finish
  given := fun given => second.given (first.given given)
  alike := fun alike => second.alike (first.alike alike)

/-- A lane that keeps its attachment and its tokens, or gets more of them. -/
theorem modifyLane {replica : Nat} {change : Lane → Lane}
    (sequence : ∀ lane, (change lane).sequence = lane.sequence)
    (tokens : ∀ lane : Lane, lane.committed <+: (change lane).committed) :
    ticket.Grows (ticket.modifyLane replica change) where
  request := request_modifyLane
  committed := by
    cases replica with
    | zero => exact tokens _
    | succ => exact List.prefix_refl _
  reported := reported_modifyLane
  finish := finish_modifyLane
  given := fun given => by rwa [abortRequested_modifyLane]
  alike := fun alike => alike.modifyLane sequence

theorem attachAll (sequence : Option SequenceId) : ticket.Grows (ticket.attachAll sequence) :=
  ⟨rfl, List.prefix_refl _, rfl, rfl, fun given => given, fun _ => alike_attachAll⟩

theorem rewound : ticket.Grows ticket.rewound :=
  ⟨rfl, List.prefix_refl _, rfl, rfl, fun given => given,
    fun alike => alike.mapLanes fun _ => rfl⟩

theorem abort : ticket.Grows ticket.abort :=
  ⟨rfl, List.prefix_refl _, rfl, rfl, fun _ => rfl, fun alike => alike⟩

theorem markPrefilled : ticket.Grows ticket.markPrefilled :=
  ⟨rfl, List.prefix_refl _, rfl, rfl, fun given => given, fun alike => alike⟩

end Ticket.Grows

namespace Scheduler

variable {s t u : Scheduler} {id : RequestId} {ticket new : Ticket} {α : Type}

/-- The requests in the order in which they will end their waiting or their running, without those
that were given up. -/
def line (s : Scheduler) : List RequestId :=
  (s.running ++ s.waiting).filter fun id => !s.givenUp id

/-- Nobody is queued twice, everybody queued is known, and lanes are attached alike. -/
structure Tidy (s : Scheduler) : Prop where
  nodup : (s.running ++ s.waiting).Nodup
  known : ∀ id ∈ s.running ++ s.waiting, id ∈ s.tickets.keys
  alike : ∀ id ticket, s.tickets.get? id = some ticket → ticket.Alike

theorem tidy_ofSize (replicas : Nat) (ids : SequenceIds) : (ofSize replicas ids).Tidy :=
  ⟨List.nodup_nil, fun _ member => absurd member List.not_mem_nil, fun _ _ found => by cases found⟩

theorem Consistent.tidy (consistent : s.Consistent) : s.Tidy :=
  ⟨consistent.nodup, fun id queued => (consistent.known id).mp queued, consistent.alike⟩

theorem Tidy.not_waiting (tidy : s.Tidy) (runs : id ∈ s.running) : id ∉ s.waiting := fun waits =>
  (List.nodup_append.mp tidy.nodup).2.2 id runs id waits rfl

/-! ### Nobody moves -/

/-- Queues and tickets are what they were, and so is the number of lanes of a request. -/
structure Still (s t : Scheduler) : Prop where
  running : t.running = s.running
  waiting : t.waiting = s.waiting
  tickets : t.tickets = s.tickets
  lanes : t.laneCount = s.laneCount

theorem Still.refl (s : Scheduler) : s.Still s := ⟨rfl, rfl, rfl, rfl⟩

theorem Still.trans (first : s.Still t) (second : t.Still u) : s.Still u where
  running := second.running.trans first.running
  waiting := second.waiting.trans first.waiting
  tickets := second.tickets.trans first.tickets
  lanes := second.lanes.trans first.lanes

/-- Nobody moves, and every ticket is at the same or a later stage. -/
structure Steady (s t : Scheduler) : Prop where
  running : t.running = s.running
  waiting : t.waiting = s.waiting
  tickets : ∀ id, Option.Rel Ticket.Grows (s.tickets.get? id) (t.tickets.get? id)
  lanes : t.laneCount = s.laneCount

namespace Steady

theorem of_still (still : s.Still t) : s.Steady t := by
  refine ⟨still.running, still.waiting, fun id => ?_, still.lanes⟩
  rw [still.tickets]
  cases s.tickets.get? id with
  | none => exact .none
  | some ticket => exact .some (.refl ticket)

theorem refl (s : Scheduler) : s.Steady s := .of_still (.refl s)

theorem trans (first : s.Steady t) (second : t.Steady u) : s.Steady u := by
  refine ⟨second.running.trans first.running, second.waiting.trans first.waiting, fun id => ?_,
    second.lanes.trans first.lanes⟩
  have early := first.tickets id
  have late := second.tickets id
  cases here : s.tickets.get? id with
  | none =>
      rw [here] at early
      cases there : t.tickets.get? id with
      | none =>
          rw [there] at late
          exact late
      | some => rw [there] at early; cases early
  | some old =>
      rw [here] at early
      cases there : t.tickets.get? id with
      | none => rw [there] at early; cases early
      | some middle =>
          rw [there] at early late
          cases early with
          | some grows =>
              generalize u.tickets.get? id = last at late
              cases late with
              | some later => exact .some (grows.trans later)

/-- A ticket is replaced by a later stage of it. -/
theorem put (found : s.tickets.get? id = some ticket) (grows : ticket.Grows new) :
    s.Steady { s with tickets := s.tickets.insert id new } := by
  refine ⟨rfl, rfl, fun other => ?_, rfl⟩
  show Option.Rel _ _ ((s.tickets.insert id new).get? other)
  rw [Registry.get?_insert]
  split
  · rename_i same
    rw [same, found]
    exact .some grows
  · exact (refl s).tickets other

theorem found (steady : s.Steady t) (found : s.tickets.get? id = some ticket) :
    ∃ new, t.tickets.get? id = some new ∧ ticket.Grows new := by
  have here := steady.tickets id
  rw [found] at here
  cases there : t.tickets.get? id with
  | none => rw [there] at here; cases here
  | some new =>
      rw [there] at here
      cases here with
      | some grows => exact ⟨new, rfl, grows⟩

theorem origin (steady : s.Steady t) (found : t.tickets.get? id = some new) :
    ∃ ticket, s.tickets.get? id = some ticket ∧ ticket.Grows new := by
  have here := steady.tickets id
  rw [found] at here
  cases there : s.tickets.get? id with
  | none => rw [there] at here; cases here
  | some ticket =>
      rw [there] at here
      cases here with
      | some grows => exact ⟨ticket, rfl, grows⟩

/-- Whoever was given up is so still. -/
theorem givenUp (steady : s.Steady t) (given : s.givenUp id = true) : t.givenUp id = true := by
  obtain ⟨ticket, found, requested⟩ := Option.any_eq_true .. |>.mp given
  obtain ⟨new, there, grows⟩ := steady.found found
  rw [givenUp_of_found there]
  exact grows.given requested

theorem known (steady : s.Steady t) : t.tickets.keys ⊆ s.tickets.keys := by
  intro id known
  obtain ⟨new, there⟩ := Registry.mem_keys_iff.mp known
  obtain ⟨ticket, here, _⟩ := steady.origin there
  exact Registry.mem_keys_iff.mpr ⟨ticket, here⟩

theorem tidy (steady : s.Steady t) (tidy : s.Tidy) : t.Tidy := by
  refine ⟨?_, fun id queued => ?_, fun id new found => ?_⟩
  · rw [steady.running, steady.waiting]
    exact tidy.nodup
  · rw [steady.running, steady.waiting] at queued
    obtain ⟨ticket, found⟩ := Registry.mem_keys_iff.mp (tidy.known id queued)
    obtain ⟨new, there, _⟩ := steady.found found
    exact Registry.mem_keys_iff.mpr ⟨new, there⟩
  · obtain ⟨ticket, here, grows⟩ := steady.origin found
    exact grows.alike (tidy.alike id ticket here)

end Steady

/-! ### Requests move along the line -/

/-- Requests may have moved along the line or left it, and nobody is new. -/
structure Orderly (s t : Scheduler) : Prop where
  tidy : t.Tidy
  line : t.line.Sublist s.line
  known : t.tickets.keys ⊆ s.tickets.keys
  lanes : t.laneCount = s.laneCount

theorem Orderly.trans (first : s.Orderly t) (second : t.Orderly u) : s.Orderly u :=
  ⟨second.tidy, second.line.trans first.line, List.Subset.trans second.known first.known,
    second.lanes.trans first.lanes⟩

/-- Besides, every ticket is at a later stage than before. -/
structure Quiet (s t : Scheduler) : Prop extends s.Orderly t where
  grown : ∀ {id new}, t.tickets.get? id = some new →
    ∃ ticket, s.tickets.get? id = some ticket ∧ ticket.Grows new

/-- If nobody that was given up is taken back, the line loses members only. -/
theorem line_sublist (given : ∀ id, s.givenUp id = true → t.givenUp id = true)
    (queue : (t.running ++ t.waiting).Sublist (s.running ++ s.waiting)) :
    t.line.Sublist s.line := by
  refine (List.monotone_filter_right _ fun id => ?_).trans (queue.filter _)
  intro spared
  rw [Bool.not_eq_true'] at spared ⊢
  exact Bool.eq_false_iff.mpr fun before => Bool.eq_false_iff.mp spared (given id before)

namespace Quiet

theorem trans (first : s.Quiet t) (second : t.Quiet u) : s.Quiet u := by
  refine ⟨first.toOrderly.trans second.toOrderly, fun found => ?_⟩
  obtain ⟨ticket, there, later⟩ := second.grown found
  obtain ⟨origin, here, earlier⟩ := first.grown there
  exact ⟨origin, here, earlier.trans later⟩

theorem of_steady (tidy : s.Tidy) (steady : s.Steady t) : s.Quiet t := by
  refine ⟨⟨steady.tidy tidy, line_sublist (fun _ => steady.givenUp) ?_, steady.known,
    steady.lanes⟩, steady.origin⟩
  rw [steady.running, steady.waiting]

/-- The same tickets in queues that join to a shorter one. -/
theorem of_queue (tidy : s.Tidy) (tickets : t.tickets = s.tickets)
    (lanes : t.laneCount = s.laneCount)
    (queue : (t.running ++ t.waiting).Sublist (s.running ++ s.waiting)) : s.Quiet t := by
  have given : t.givenUp = s.givenUp := by
    funext id
    rw [givenUp, givenUp, tickets]
  refine ⟨⟨⟨tidy.nodup.sublist queue, fun id queued => ?_, tickets ▸ tidy.alike⟩,
    line_sublist (fun id before => given ▸ before) queue, fun id known => tickets ▸ known, lanes⟩,
    fun found => ?_⟩
  · rw [tickets]
    exact tidy.known id (queue.subset queued)
  · rw [tickets] at found
    exact ⟨_, found, .refl _⟩

/-- The request at the front of the waiting queue goes to the back of the running one. -/
theorem advance {rest : List RequestId} (tidy : s.Tidy) (front : s.waiting = id :: rest) :
    s.Quiet { s with waiting := s.waiting.tail, running := s.running ++ [id] } := by
  refine of_queue tidy rfl rfl ?_
  rw [front, List.tail_cons, List.append_assoc]
  exact List.Sublist.refl _

/-- A running request goes to the front of the waiting queue. Everybody behind it was given up, so
that nobody in the line is passed over. -/
theorem requeue {before behind : List RequestId} (tidy : s.Tidy)
    (queue : s.running = before ++ id :: behind)
    (given : ∀ other ∈ behind, s.givenUp other = true) : s.Quiet (Cluster.requeue id s) := by
  have nodup := tidy.nodup
  have erased : s.running.erase id = before ++ behind := by
    rw [queue] at nodup ⊢
    have absent : id ∉ before := by
      have apart := (List.nodup_append.mp (List.nodup_append.mp nodup).1).2.2
      exact fun member => apart id member id List.mem_cons_self rfl
    rw [List.erase_append_right _ absent, List.erase_cons_head]
  have perm : ((Cluster.requeue id s).running ++ (Cluster.requeue id s).waiting).Perm
      (s.running ++ s.waiting) := by
    show (s.running.erase id ++ id :: s.waiting).Perm _
    rw [erased, queue, List.append_assoc, List.append_assoc, List.cons_append]
    exact (List.perm_middle).append_left before
  have none : behind.filter (fun id => !s.givenUp id) = [] := by
    refine List.filter_eq_nil_iff.mpr fun other member => ?_
    rw [given other member]
    exact Bool.false_ne_true
  have same : (Cluster.requeue id s).line = s.line := by
    show ((s.running.erase id ++ id :: s.waiting).filter fun id => !s.givenUp id) = s.line
    rw [Scheduler.line, erased, queue]
    simp only [List.filter_append, List.filter_cons, none, List.append_nil]
    split <;> simp
  refine ⟨⟨⟨perm.nodup_iff.mpr nodup, fun other queued => tidy.known other (perm.subset queued),
    tidy.alike⟩, ?_, fun _ known => known, rfl⟩, fun found => ⟨_, found, .refl _⟩⟩
  rw [same]

/-- A request that is not queued any more is forgotten. -/
theorem forget (tidy : s.Tidy) (gone : id ∉ s.running ++ s.waiting) :
    s.Quiet { s with tickets := s.tickets.erase id } := by
  have others : ∀ other, other ≠ id → (s.tickets.erase id).get? other = s.tickets.get? other := by
    intro other differ
    rw [Registry.get?_erase, if_neg differ]
  have same : Scheduler.line { s with tickets := s.tickets.erase id } = s.line := by
    refine List.filter_congr fun other queued => ?_
    have differ : other ≠ id := fun same => gone (same ▸ queued)
    show (!((s.tickets.erase id).get? other).any _) = _
    rw [others other differ]
    rfl
  have origin : ∀ {other new}, (s.tickets.erase id).get? other = some new →
      s.tickets.get? other = some new := by
    intro other new found
    by_cases same : other = id
    · rw [same, Registry.get?_erase, if_pos rfl] at found
      cases found
    · rwa [others other same] at found
  refine ⟨⟨⟨tidy.nodup, fun other queued => ?_, fun other new found => ?_⟩, ?_,
    fun _ known => (Registry.mem_keys_erase.mp known).2, rfl⟩,
    fun found => ⟨_, origin found, .refl _⟩⟩
  · exact Registry.mem_keys_erase.mpr
      ⟨fun same => gone (same ▸ queued), tidy.known other queued⟩
  · exact tidy.alike other new (origin found)
  · rw [same]

end Quiet

/-- Besides, nobody was sent back to wait. -/
structure Forward (s t : Scheduler) : Prop extends s.Quiet t where
  waits : t.waiting ⊆ s.waiting

namespace Forward

theorem trans (first : s.Forward t) (second : t.Forward u) : s.Forward u :=
  ⟨first.toQuiet.trans second.toQuiet, fun _ waits => first.waits (second.waits waits)⟩

theorem of_steady (tidy : s.Tidy) (steady : s.Steady t) : s.Forward t :=
  ⟨.of_steady tidy steady, fun _ waits => steady.waiting ▸ waits⟩

theorem refl (tidy : s.Tidy) : s.Forward s := .of_steady tidy (.refl s)

end Forward

/-- A ticket is replaced by one that was given up if the old one was. -/
theorem Orderly.put (tidy : s.Tidy) (found : s.tickets.get? id = some ticket)
    (given : ticket.abortRequested = true → new.abortRequested = true)
    (alike : ticket.Alike → new.Alike) :
    s.Orderly { s with tickets := s.tickets.insert id new } := by
  have here : ∀ other, (s.tickets.insert id new).get? other =
      if other = id then some new else s.tickets.get? other := fun other => Registry.get?_insert ..
  refine ⟨⟨tidy.nodup, fun other queued => ?_, fun other held there => ?_⟩,
    line_sublist (fun other before => ?_) (List.Sublist.refl _), fun other known => ?_, rfl⟩
  · exact Registry.mem_keys_insert.mpr (Or.inr (tidy.known other queued))
  · replace there := (here other).symm.trans there
    split at there
    · cases there
      exact alike (tidy.alike id ticket found)
    · exact tidy.alike other held there
  · show ((s.tickets.insert id new).get? other).any _ = true
    rw [here]
    split
    · rename_i same
      rw [same, givenUp_of_found found] at before
      exact given before
    · exact before
  · rcases Registry.mem_keys_insert.mp known with same | known
    · exact Registry.mem_keys_iff.mpr ⟨ticket, same ▸ found⟩
    · exact known

end Scheduler

/-! ### Clusters -/

namespace Cluster

variable {c d e : Cluster}

/-- Nobody moves, and nothing is delivered. -/
structure Steady (c d : Cluster) : Prop where
  scheduler : c.scheduler.Steady d.scheduler
  delivered : d.delivered = c.delivered

/-- Requests may have moved along the line or left it, and nothing is delivered. -/
structure Quiet (c d : Cluster) : Prop where
  scheduler : c.scheduler.Quiet d.scheduler
  delivered : d.delivered = c.delivered

/-- Besides, nobody was sent back to wait. -/
structure Forward (c d : Cluster) : Prop where
  scheduler : c.scheduler.Forward d.scheduler
  delivered : d.delivered = c.delivered

theorem Steady.of_eq (scheduler : d.scheduler = c.scheduler)
    (delivered : d.delivered = c.delivered) : c.Steady d :=
  ⟨scheduler ▸ .refl c.scheduler, delivered⟩

theorem Steady.refl (c : Cluster) : c.Steady c := .of_eq rfl rfl

theorem Steady.trans (first : c.Steady d) (second : d.Steady e) : c.Steady e :=
  ⟨first.scheduler.trans second.scheduler, second.delivered.trans first.delivered⟩

theorem Steady.forward (steady : c.Steady d) (tidy : c.scheduler.Tidy) : c.Forward d :=
  ⟨.of_steady tidy steady.scheduler, steady.delivered⟩

theorem Forward.refl (tidy : c.scheduler.Tidy) : c.Forward c := (Steady.refl c).forward tidy

theorem Forward.trans (first : c.Forward d) (second : d.Forward e) : c.Forward e :=
  ⟨first.scheduler.trans second.scheduler, second.delivered.trans first.delivered⟩

theorem Forward.tidy (forward : c.Forward d) : d.scheduler.Tidy := forward.scheduler.tidy

theorem Forward.quiet (forward : c.Forward d) : c.Quiet d :=
  ⟨forward.scheduler.toQuiet, forward.delivered⟩

theorem Steady.quiet (steady : c.Steady d) (tidy : c.scheduler.Tidy) : c.Quiet d :=
  (steady.forward tidy).quiet

theorem Quiet.trans (first : c.Quiet d) (second : d.Quiet e) : c.Quiet e :=
  ⟨first.scheduler.trans second.scheduler, second.delivered.trans first.delivered⟩

theorem Quiet.tidy (quiet : c.Quiet d) : d.scheduler.Tidy := quiet.scheduler.tidy

end Cluster

end ContinuousBatching
