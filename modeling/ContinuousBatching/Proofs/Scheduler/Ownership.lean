/-
**Who owns what.**

`Scheduler.Consistent` says what the bookkeeping of a scheduler promises at any time, also after a
call that was refused: the queued ids are the ids of the tickets and none is queued twice; the lanes
of a request are attached alike, and to a sequence if the request runs; no two requests are attached
to the same sequence, and the live sequence ids are those that requests are attached to; and the
positions counted are those of the running requests.

The changes that the operations make are written out as functions of the scheduler, and each of them
keeps the promise:

* `Consistent.put`: a ticket is replaced, with the same sequence;
* `Consistent.added`: a request enters the waiting queue (`Scheduler.added`);
* `Consistent.started`: the front of the waiting queue runs (`Scheduler.started`);
* `Consistent.preempted`: a running request waits again (`Scheduler.preempted`);
* `Consistent.dropped`, `Consistent.ended`: a waiting or a running request is forgotten
  (`Scheduler.dropped`, `Scheduler.ended`).
-/

import ContinuousBatching.Proofs.Registry
import ContinuousBatching.Proofs.Request.Ticket
import ContinuousBatching.Proofs.SequenceIds
import ContinuousBatching.Proofs.Sums
import ContinuousBatching.Scheduler.Basic

namespace ContinuousBatching.Scheduler

/-- The sequence that a request is attached to. -/
def sequenceOf? (s : Scheduler) (id : RequestId) : Option SequenceId :=
  (s.tickets.get? id).bind fun ticket => ticket.primary.sequence

/-- The positions that a request takes in a cache. -/
def occupiedBy (s : Scheduler) (id : RequestId) : Nat :=
  ((s.tickets.get? id).map Ticket.occupied).getD 0

/-- The bookkeeping does not contradict itself. -/
structure Consistent (s : Scheduler) : Prop where
  nodup : (s.running ++ s.waiting).Nodup
  known : ∀ id, id ∈ s.running ++ s.waiting ↔ id ∈ s.tickets.keys
  alike : ∀ id ticket, s.tickets.get? id = some ticket → ticket.Alike
  attached : ∀ id ∈ s.running, s.sequenceOf? id ≠ none
  owner : ∀ first second sequence, s.sequenceOf? first = some sequence →
    s.sequenceOf? second = some sequence → first = second
  live : ∀ sequence, sequence ∈ s.ids.live ↔ ∃ id, s.sequenceOf? id = some sequence
  ids : s.ids.Sound
  occupied : s.totals.occupied = (s.running.map s.occupiedBy).sum
  countable : s.totals.occupied < Count.limit

/-- The sequence ids once the one of a request was taken back. -/
structure Frees (s : Scheduler) (id : RequestId) (ids : SequenceIds) : Prop where
  sound : ids.Sound
  capacity : ids.capacity = s.ids.capacity
  live : ∀ sequence, sequence ∈ ids.live ↔
    sequence ∈ s.ids.live ∧ s.sequenceOf? id ≠ some sequence

/-- Taking back the id that a request holds, and no other. -/
theorem Frees.of_erase {s : Scheduler} {id : RequestId} {ids : SequenceIds}
    {sequence : SequenceId} (old : s.ids.Sound) (held : s.sequenceOf? id = some sequence)
    (sound : ids.Sound) (capacity : ids.capacity = s.ids.capacity)
    (erased : ids.live = s.ids.live.erase sequence) : s.Frees id ids := by
  refine ⟨sound, capacity, fun other => ?_⟩
  rw [erased, old.nodup_live.mem_erase_iff, held, and_comm, ne_comm, ne_eq, ne_eq,
    Option.some_inj]

/-- A request that holds no id leaves the ids as they are. -/
theorem Frees.of_none {s : Scheduler} {id : RequestId} (sound : s.ids.Sound)
    (unattached : s.sequenceOf? id = none) : s.Frees id s.ids :=
  ⟨sound, rfl, fun other => by simp [unattached]⟩

/-! ### The changes -/

/-- A new request waits. -/
def added (s : Scheduler) (id : RequestId) (ticket : Ticket) : Scheduler :=
  { s with tickets := s.tickets.insert id ticket, waiting := s.waiting ++ [id] }

/-- The request at the front of the waiting queue runs with a sequence. -/
def started (s : Scheduler) (id : RequestId) (ticket : Ticket) (sequence : SequenceId)
    (ids : SequenceIds) : Scheduler :=
  { s with
    running := s.running ++ [id]
    waiting := s.waiting.tail
    tickets := s.tickets.insert id (ticket.attachAll (some sequence))
    ids := ids
    totals := { s.totals with occupied := s.totals.occupied + ticket.occupied } }

/-- A running request waits at the front of the waiting queue, to be fed everything again. -/
def preempted (s : Scheduler) (id : RequestId) (ticket : Ticket) : Scheduler :=
  { s with
    running := s.running.erase id
    waiting := id :: s.waiting
    tickets := s.tickets.insert id ticket.rewound
    totals := { s.totals with occupied := s.totals.occupied - ticket.occupied } }

/-- A waiting request is forgotten. -/
def dropped (s : Scheduler) (id : RequestId) (ids : SequenceIds) : Scheduler :=
  { s with waiting := s.waiting.erase id, tickets := s.tickets.erase id, ids := ids }

/-- A running request is forgotten, and its lengths are added to the totals. -/
def ended (s : Scheduler) (id : RequestId) (ticket : Ticket) (ids : SequenceIds) : Scheduler :=
  { s with
    running := s.running.erase id
    tickets := s.tickets.erase id
    ids := ids
    totals :=
      { s.totals with
        occupied := s.totals.occupied - ticket.occupied
        prefillLength := s.totals.prefillLength + ticket.request.inputLength
        decodeLength := s.totals.decodeLength + (ticket.primary.committed.length - 1) } }

/-! ### Views -/

section Views

variable {s t : Scheduler} {id other : RequestId} {ticket : Ticket}

theorem sequenceOf?_of_found (found : s.tickets.get? id = some ticket) :
    s.sequenceOf? id = ticket.primary.sequence := by
  rw [sequenceOf?, found]
  rfl

theorem occupiedBy_of_found (found : s.tickets.get? id = some ticket) :
    s.occupiedBy id = ticket.occupied := by
  rw [occupiedBy, found]
  rfl

theorem sequenceOf?_eq_some_iff {sequence : SequenceId} :
    s.sequenceOf? id = some sequence ↔
      ∃ ticket, s.tickets.get? id = some ticket ∧ ticket.primary.sequence = some sequence :=
  Option.bind_eq_some_iff

theorem sequenceOf?_of_insert (tickets : t.tickets = s.tickets.insert id ticket) :
    t.sequenceOf? other =
      if other = id then ticket.primary.sequence else s.sequenceOf? other := by
  rw [sequenceOf?, tickets, Registry.get?_insert]
  split <;> rfl

theorem sequenceOf?_of_erase (tickets : t.tickets = s.tickets.erase id) :
    t.sequenceOf? other = if other = id then none else s.sequenceOf? other := by
  rw [sequenceOf?, tickets, Registry.get?_erase]
  split <;> rfl

theorem occupiedBy_of_insert (tickets : t.tickets = s.tickets.insert id ticket) :
    t.occupiedBy other = if other = id then ticket.occupied else s.occupiedBy other := by
  rw [occupiedBy, tickets, Registry.get?_insert]
  split <;> rfl

theorem occupiedBy_of_erase (tickets : t.tickets = s.tickets.erase id) :
    t.occupiedBy other = if other = id then 0 else s.occupiedBy other := by
  rw [occupiedBy, tickets, Registry.get?_erase]
  split <;> rfl

/-- Requests apart from one whose ticket was replaced occupy what they did. -/
theorem occupied_others {list : List RequestId} (absent : id ∉ list)
    (tickets : t.tickets = s.tickets.insert id ticket) :
    (list.map t.occupiedBy).sum = (list.map s.occupiedBy).sum :=
  sum_map_congr fun other member => by
    have differ : other ≠ id := fun same => absent (same ▸ member)
    rw [occupiedBy_of_insert tickets, if_neg differ]

theorem occupied_others_of_erase {list : List RequestId} (absent : id ∉ list)
    (tickets : t.tickets = s.tickets.erase id) :
    (list.map t.occupiedBy).sum = (list.map s.occupiedBy).sum :=
  sum_map_congr fun other member => by
    have differ : other ≠ id := fun same => absent (same ▸ member)
    rw [occupiedBy_of_erase tickets, if_neg differ]

end Views

/-! ### What the promise says -/

namespace Consistent

variable {s : Scheduler} {id : RequestId} {ticket : Ticket}

theorem found_of_queued (consistent : s.Consistent) (queued : id ∈ s.running ++ s.waiting) :
    ∃ ticket, s.tickets.get? id = some ticket :=
  Registry.mem_keys_iff.mp ((consistent.known id).mp queued)

theorem queued_of_found (consistent : s.Consistent) (found : s.tickets.get? id = some ticket) :
    id ∈ s.running ++ s.waiting :=
  (consistent.known id).mpr (Registry.mem_keys_iff.mpr ⟨ticket, found⟩)

theorem found_of_running (consistent : s.Consistent) (runs : id ∈ s.running) :
    ∃ ticket, s.tickets.get? id = some ticket :=
  consistent.found_of_queued (List.mem_append_left _ runs)

theorem nodup_running (consistent : s.Consistent) : s.running.Nodup :=
  (List.nodup_append.mp consistent.nodup).1

theorem nodup_waiting (consistent : s.Consistent) : s.waiting.Nodup :=
  (List.nodup_append.mp consistent.nodup).2.1

theorem not_waiting_of_running (consistent : s.Consistent) (runs : id ∈ s.running) :
    id ∉ s.waiting := fun waits =>
  (List.nodup_append.mp consistent.nodup).2.2 id runs id waits rfl

/-- A running request is attached to a sequence. -/
theorem sequence_of_running (consistent : s.Consistent) (runs : id ∈ s.running)
    (found : s.tickets.get? id = some ticket) :
    ∃ sequence, ticket.primary.sequence = some sequence := by
  have attached := consistent.attached id runs
  rw [sequenceOf?_of_found found] at attached
  exact Option.ne_none_iff_exists'.mp attached

theorem occupied_le (consistent : s.Consistent) (runs : id ∈ s.running)
    (found : s.tickets.get? id = some ticket) : ticket.occupied ≤ s.totals.occupied := by
  rw [consistent.occupied, ← occupiedBy_of_found found]
  exact le_sum_map s.occupiedBy runs

/-- A sequence whose request is forgotten is held by nobody. -/
theorem unheld_of_erase (consistent : s.Consistent) {sequence : SequenceId}
    (held : s.sequenceOf? id = some sequence) :
    ∀ other ticket, (s.tickets.erase id).get? other = some ticket →
      ticket.refersTo sequence = false := by
  intro other ticket found
  rw [Registry.get?_erase] at found
  split at found
  · cases found
  · rename_i differ
    refine Bool.eq_false_iff.mpr fun refers => differ ?_
    have attached := ((consistent.alike other ticket found).refersTo_iff).mp refers
    exact consistent.owner other id sequence ((sequenceOf?_of_found found).trans attached) held

theorem ofSize (replicas capacity : Nat) :
    (Scheduler.ofSize replicas (.ofCapacity capacity)).Consistent where
  nodup := List.nodup_nil
  known := fun _ => Iff.rfl
  alike := fun _ _ found => by cases found
  attached := fun _ runs => by cases runs
  owner := fun _ _ _ held => by cases held
  live := fun _ => by
    constructor
    · intro live
      cases live
    · rintro ⟨_, held⟩
      cases held
  ids := SequenceIds.ofCapacity_sound capacity
  occupied := rfl
  countable := show 0 < Count.limit by decide

/-! ### The changes keep the promise -/

/-- Replacing a ticket by one with the same sequence, when its positions are counted. -/
theorem put (consistent : s.Consistent) {new : Ticket} {totals : Totals}
    (found : s.tickets.get? id = some ticket) (alike : new.Alike)
    (same : new.primary.sequence = ticket.primary.sequence)
    (counted : id ∈ s.running →
      totals.occupied + ticket.occupied = s.totals.occupied + new.occupied)
    (uncounted : id ∉ s.running → totals.occupied = s.totals.occupied)
    (countable : totals.occupied < Count.limit) :
    Consistent { s with tickets := s.tickets.insert id new, totals := totals } := by
  have present : id ∈ s.tickets.keys := Registry.mem_keys_iff.mpr ⟨ticket, found⟩
  have sequences : ∀ other, sequenceOf?
      { s with tickets := s.tickets.insert id new, totals := totals } other =
        s.sequenceOf? other := fun other => by
    rw [sequenceOf?_of_insert rfl, same]
    split
    · rename_i here
      rw [here, sequenceOf?_of_found found]
    · rfl
  refine ⟨consistent.nodup, fun other => ?_, fun other held there => ?_, fun other runs => ?_,
    fun first second sequence => ?_, fun sequence => ?_, consistent.ids, ?_, countable⟩
  · rw [Registry.keys_insert_of_mem present]
    exact consistent.known other
  · rw [Registry.get?_insert] at there
    split at there
    · cases there
      exact alike
    · exact consistent.alike other held there
  · rw [sequences]
    exact consistent.attached other runs
  · rw [sequences, sequences]
    exact consistent.owner first second sequence
  · simp only [sequences]
    exact consistent.live sequence
  · show totals.occupied = (s.running.map _).sum
    by_cases runs : id ∈ s.running
    · have before := consistent.occupied
      have balance := counted runs
      have absent : id ∉ s.running.erase id := consistent.nodup_running.not_mem_erase
      rw [← List.sum_map_erase _ runs, occupied_others absent rfl, occupiedBy_of_insert rfl,
        if_pos rfl]
      rw [← List.sum_map_erase _ runs, occupiedBy_of_found found] at before
      omega
    · rw [occupied_others runs rfl, uncounted runs]
      exact consistent.occupied

/-- Replacing a ticket by one with the same sequence that occupies as much. -/
theorem put_same (consistent : s.Consistent) {new : Ticket}
    (found : s.tickets.get? id = some ticket) (alike : new.Alike)
    (same : new.primary.sequence = ticket.primary.sequence)
    (occupied : new.occupied = ticket.occupied) :
    Consistent { s with tickets := s.tickets.insert id new } :=
  consistent.put found alike same (fun _ => by rw [occupied]) (fun _ => rfl) consistent.countable

theorem added (consistent : s.Consistent) (absent : id ∉ s.tickets.keys) (alike : ticket.Alike)
    (unattached : ticket.primary.sequence = none) : (s.added id ticket).Consistent := by
  have sequences : ∀ other, (s.added id ticket).sequenceOf? other = s.sequenceOf? other :=
    fun other => by
      rw [sequenceOf?_of_insert rfl, unattached]
      split
      · rename_i here
        rw [here, sequenceOf?, Registry.get?_eq_none_iff.mpr absent]
        rfl
      · rfl
  have unqueued : id ∉ s.running ++ s.waiting := fun queued =>
    absent ((consistent.known id).mp queued)
  refine ⟨?_, fun other => ?_, fun other held there => ?_, fun other runs => ?_,
    fun first second sequence => ?_, fun sequence => ?_, consistent.ids, ?_, consistent.countable⟩
  · show (s.running ++ (s.waiting ++ [id])).Nodup
    rw [← List.append_assoc, List.nodup_append]
    refine ⟨consistent.nodup, by simp, fun other queued new member => ?_⟩
    rintro rfl
    exact unqueued (List.mem_singleton.mp member ▸ queued)
  · show other ∈ s.running ++ (s.waiting ++ [id]) ↔ other ∈ (s.tickets.insert id ticket).keys
    rw [Registry.mem_keys_insert, ← List.append_assoc, List.mem_append, consistent.known,
      List.mem_singleton, or_comm]
  · replace there : (s.tickets.insert id ticket).get? other = some held := there
    rw [Registry.get?_insert] at there
    split at there
    · cases there
      exact alike
    · exact consistent.alike other held there
  · rw [sequences]
    exact consistent.attached other runs
  · rw [sequences, sequences]
    exact consistent.owner first second sequence
  · simp only [sequences]
    exact consistent.live sequence
  · have absent : id ∉ s.running := fun runs => unqueued (List.mem_append_left _ runs)
    show s.totals.occupied = (s.running.map _).sum
    rw [occupied_others absent rfl]
    exact consistent.occupied

theorem started (consistent : s.Consistent) {rest : List RequestId} {sequence : SequenceId}
    {freed ids : SequenceIds} (front : s.waiting = id :: rest)
    (found : s.tickets.get? id = some ticket) (frees : s.Frees id freed)
    (fresh : sequence ∉ freed.live) (sound : ids.Sound) (live : ids.live = sequence :: freed.live)
    (countable : s.totals.occupied + ticket.occupied < Count.limit) :
    (s.started id ticket sequence ids).Consistent := by
  have queue : (s.started id ticket sequence ids).running ++
      (s.started id ticket sequence ids).waiting = s.running ++ s.waiting := by
    show s.running ++ [id] ++ s.waiting.tail = _
    rw [front, List.tail_cons, List.append_assoc, List.singleton_append]
  have present : id ∈ s.tickets.keys := Registry.mem_keys_iff.mpr ⟨ticket, found⟩
  have idle : id ∉ s.running := fun runs =>
    consistent.not_waiting_of_running runs (front ▸ List.mem_cons_self)
  have sequences : ∀ other, (s.started id ticket sequence ids).sequenceOf? other =
      if other = id then some sequence else s.sequenceOf? other := fun other => by
    rw [sequenceOf?_of_insert rfl]
    rfl
  -- nobody else holds the new sequence: all that others hold is live without the stale id
  have unheld : ∀ other, other ≠ id → s.sequenceOf? other ≠ some sequence := by
    intro other differ held
    refine fresh ((frees.live sequence).mpr ⟨(consistent.live sequence).mpr ⟨other, held⟩, ?_⟩)
    exact fun stale => differ (consistent.owner other id sequence held stale)
  refine ⟨queue ▸ consistent.nodup, fun other => ?_, fun other held there => ?_,
    fun other runs => ?_, fun first second held => ?_, fun held => ?_, sound, ?_, countable⟩
  · rw [queue]
    show _ ↔ other ∈ (s.tickets.insert id _).keys
    rw [Registry.keys_insert_of_mem present]
    exact consistent.known other
  · replace there : (s.tickets.insert id _).get? other = some held := there
    rw [Registry.get?_insert] at there
    split at there
    · cases there
      exact Ticket.alike_attachAll
    · exact consistent.alike other held there
  · rw [sequences]
    split
    · exact Option.some_ne_none sequence
    · rename_i differ
      rcases List.mem_append.mp runs with runs | new
      · exact consistent.attached other runs
      · exact absurd (List.mem_singleton.mp new) differ
  · rw [sequences, sequences]
    intro held₁ held₂
    split at held₁ <;> split at held₂
    · rename_i same₁ same₂
      rw [same₁, same₂]
    · rename_i differ
      exact absurd (held₁ ▸ held₂) (unheld second differ)
    · rename_i differ _
      exact absurd (held₂ ▸ held₁) (unheld first differ)
    · exact consistent.owner first second held held₁ held₂
  · show held ∈ ids.live ↔ _
    simp only [sequences]
    rw [live, List.mem_cons, frees.live, consistent.live]
    constructor
    · rintro (rfl | ⟨⟨other, held⟩, kept⟩)
      · exact ⟨id, if_pos rfl⟩
      · have differ : other ≠ id := fun same => kept (same ▸ held)
        refine ⟨other, ?_⟩
        rw [if_neg differ]
        exact held
    · rintro ⟨other, found⟩
      split at found
      · exact Or.inl (Option.some.inj found).symm
      · rename_i differ
        exact Or.inr ⟨⟨other, found⟩,
          fun stale => differ (consistent.owner other id held found stale)⟩
  · show s.totals.occupied + ticket.occupied = ((s.running ++ [id]).map _).sum
    rw [List.map_append, List.sum_append, occupied_others idle rfl, List.map_singleton,
      List.sum_cons, occupiedBy_of_insert rfl, if_pos rfl, consistent.occupied]
    rfl

theorem preempted (consistent : s.Consistent) (runs : id ∈ s.running)
    (found : s.tickets.get? id = some ticket) : (s.preempted id ticket).Consistent := by
  have queue : ((s.preempted id ticket).running ++ (s.preempted id ticket).waiting).Perm
      (s.running ++ s.waiting) := by
    show (s.running.erase id ++ id :: s.waiting).Perm _
    exact List.perm_middle.trans ((List.perm_cons_erase runs).append_right s.waiting).symm
  have present : id ∈ s.tickets.keys := Registry.mem_keys_iff.mpr ⟨ticket, found⟩
  have sequences : ∀ other, (s.preempted id ticket).sequenceOf? other = s.sequenceOf? other :=
    fun other => by
      rw [sequenceOf?_of_insert rfl]
      split
      · rename_i here
        rw [here, sequenceOf?_of_found found]
        rfl
      · rfl
  refine ⟨queue.nodup_iff.mpr consistent.nodup, fun other => ?_, fun other held there => ?_,
    fun other runs => ?_, fun first second sequence => ?_, fun sequence => ?_, consistent.ids,
    ?_, ?_⟩
  · rw [queue.mem_iff]
    show _ ↔ other ∈ (s.tickets.insert id _).keys
    rw [Registry.keys_insert_of_mem present]
    exact consistent.known other
  · replace there : (s.tickets.insert id _).get? other = some held := there
    rw [Registry.get?_insert] at there
    split at there
    · cases there
      exact (consistent.alike id ticket found).mapLanes fun _ => rfl
    · exact consistent.alike other held there
  · rw [sequences]
    exact consistent.attached other (List.mem_of_mem_erase runs)
  · rw [sequences, sequences]
    exact consistent.owner first second sequence
  · simp only [sequences]
    exact consistent.live sequence
  · have absent : id ∉ s.running.erase id := consistent.nodup_running.not_mem_erase
    have before := consistent.occupied
    show s.totals.occupied - ticket.occupied = ((s.running.erase id).map _).sum
    rw [occupied_others absent rfl]
    rw [← List.sum_map_erase _ runs, occupiedBy_of_found found] at before
    omega
  · exact Nat.lt_of_le_of_lt (Nat.sub_le _ _) consistent.countable

/-- A request leaves its queue together with its ticket and its sequence id. -/
theorem forgotten {t : Scheduler} (consistent : s.Consistent)
    (queue : (t.running ++ t.waiting).Perm ((s.running ++ s.waiting).erase id))
    (running : ∀ other ∈ t.running, other ∈ s.running) (tickets : t.tickets = s.tickets.erase id)
    (frees : s.Frees id t.ids)
    (occupied : t.totals.occupied = (t.running.map t.occupiedBy).sum)
    (countable : t.totals.occupied < Count.limit) : t.Consistent := by
  have nodup := queue.nodup_iff.mpr (consistent.nodup.erase id)
  have absent : id ∉ t.running ++ t.waiting := fun queued =>
    consistent.nodup.not_mem_erase (queue.mem_iff.mp queued)
  have sequences : ∀ other, t.sequenceOf? other =
      if other = id then none else s.sequenceOf? other := fun other => sequenceOf?_of_erase tickets
  refine ⟨nodup, fun other => ?_, fun other held there => ?_, fun other runs => ?_,
    fun first second sequence => ?_, fun sequence => ?_, frees.sound, occupied, countable⟩
  · rw [queue.mem_iff, consistent.nodup.mem_erase_iff, consistent.known, tickets,
      Registry.mem_keys_erase]
  · rw [tickets, Registry.get?_erase] at there
    split at there
    · cases there
    · exact consistent.alike other held there
  · have differ : other ≠ id := by
      rintro rfl
      exact absent (List.mem_append_left _ runs)
    rw [sequences, if_neg differ]
    exact consistent.attached other (running other runs)
  · rw [sequences, sequences]
    intro held₁ held₂
    split at held₁ <;> split at held₂
    · cases held₁
    · cases held₁
    · cases held₂
    · exact consistent.owner first second sequence held₁ held₂
  · simp only [sequences]
    rw [frees.live, consistent.live]
    constructor
    · rintro ⟨⟨other, held⟩, kept⟩
      have differ : other ≠ id := fun same => kept (same ▸ held)
      exact ⟨other, by rw [if_neg differ]; exact held⟩
    · rintro ⟨other, held⟩
      split at held
      · cases held
      · rename_i differ
        exact ⟨⟨other, held⟩, fun own => differ (consistent.owner other id sequence held own)⟩

theorem dropped (consistent : s.Consistent) {ids : SequenceIds} (waits : id ∈ s.waiting)
    (frees : s.Frees id ids) : (s.dropped id ids).Consistent := by
  have idle : id ∉ s.running := fun runs => consistent.not_waiting_of_running runs waits
  refine consistent.forgotten ?_ (fun _ runs => runs) rfl frees ?_ consistent.countable
  · rw [List.erase_append_right _ idle]
    exact List.Perm.refl _
  · show s.totals.occupied = (s.running.map _).sum
    rw [occupied_others_of_erase idle rfl]
    exact consistent.occupied

theorem ended (consistent : s.Consistent) {ids : SequenceIds} (runs : id ∈ s.running)
    (found : s.tickets.get? id = some ticket) (frees : s.Frees id ids) :
    (s.ended id ticket ids).Consistent := by
  refine consistent.forgotten ?_ (fun _ => List.mem_of_mem_erase) rfl frees ?_ ?_
  · rw [List.erase_append_left _ runs]
    exact List.Perm.refl _
  · have absent : id ∉ s.running.erase id := consistent.nodup_running.not_mem_erase
    have before := consistent.occupied
    show s.totals.occupied - ticket.occupied = ((s.running.erase id).map _).sum
    rw [occupied_others_of_erase absent rfl]
    rw [← List.sum_map_erase _ runs, occupiedBy_of_found found] at before
    omega
  · exact Nat.lt_of_le_of_lt (Nat.sub_le _ _) consistent.countable

end Consistent

end ContinuousBatching.Scheduler
