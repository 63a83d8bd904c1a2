/-
**The audit of consistent bookkeeping.**

`Scheduler.audit` computes from the tickets what the queues, the sequence ids and the totals should
say. Consistent bookkeeping says the same, so the audit can only find fault with the requests
themselves: a running one that was not fed, or a waiting one that is not prepared.

* `auditQueue_eq_ok`, `auditRunning_eq_ok`, `auditWaiting_eq_ok`, `auditSequences_eq_ok`: the parts
  of the audit;
* `audit_eq_ok`: the whole audit.
-/

import ContinuousBatching.Proofs.Scheduler.Actions
import ContinuousBatching.Scheduler.Audit
import Mathlib.Data.List.Nodup

namespace ContinuousBatching.Scheduler

variable {s : Scheduler}

theorem auditQueue_eq_ok : ∀ {queue seen : List RequestId},
    (∀ id ∈ queue, id ∈ s.tickets.keys ∧ id ∉ seen) → queue.Nodup →
    s.auditQueue seen queue = .ok ()
  | [], _, _, _ => rfl
  | id :: rest, seen, known, nodup => by
      obtain ⟨present, new⟩ := known id List.mem_cons_self
      obtain ⟨absent, nodup⟩ := List.nodup_cons.mp nodup
      rw [auditQueue, if_neg new, if_pos (Registry.contains_iff.mpr present)]
      refine auditQueue_eq_ok (fun other member => ?_) nodup
      obtain ⟨present, new⟩ := known other (List.mem_cons_of_mem id member)
      refine ⟨present, List.mem_cons.not.mpr (not_or.mpr ⟨?_, new⟩)⟩
      exact fun same => absent (same ▸ member)

/-- The positions of running requests that were fed are added up. -/
theorem auditRunning_eq_ok : ∀ (queue : List RequestId) (length : Nat),
    (∀ id ∈ queue, ∃ ticket, s.tickets.get? id = some ticket ∧ ticket.primary.pending = [] ∧
      ticket.primary.committed ≠ []) →
    length + (queue.map s.occupiedBy).sum < Count.limit →
    s.auditRunning length queue = .ok (length + (queue.map s.occupiedBy).sum)
  | [], _, _, _ => rfl
  | id :: rest, length, fed, countable => by
      obtain ⟨ticket, found, pending, committed⟩ := fed id List.mem_cons_self
      rw [List.map_cons, List.sum_cons, occupiedBy_of_found found] at countable ⊢
      have own : ticket.occupiedLength = .ok ticket.occupied :=
        Count.add_eq_ok_iff.mpr ⟨by unfold Ticket.occupied at countable; omega, rfl⟩
      have sum : Count.add length ticket.occupied = .ok (length + ticket.occupied) :=
        Count.add_eq_ok_iff.mpr ⟨by omega, rfl⟩
      have filled : ¬ ticket.primary.committed.isEmpty = true := by
        rwa [List.isEmpty_iff]
      have later := auditRunning_eq_ok rest (length + ticket.occupied)
        (fun other member => fed other (List.mem_cons_of_mem id member)) (by omega)
      rw [auditRunning, ticketOf_of_found found]
      show (if !ticket.primary.pending.isEmpty then _ else
        if ticket.primary.committed.isEmpty then _ else _) = _
      rw [pending, if_neg (by decide), if_neg filled, own]
      show (Count.add length ticket.occupied >>= fun sum => s.auditRunning sum rest) = _
      rw [sum]
      show s.auditRunning (length + ticket.occupied) rest = _
      rw [later, Nat.add_assoc]

theorem auditLanes_eq_ok {id : RequestId} : ∀ {lanes : List Lane},
    (∀ lane ∈ lanes, lane.drafts = [] ∧ lane.pending ≠ []) → auditLanes id lanes = .ok ()
  | [], _ => rfl
  | lane :: rest, ready => by
      obtain ⟨drafts, pending⟩ := ready lane List.mem_cons_self
      have filled : ¬ lane.pending.isEmpty = true := by
        rwa [List.isEmpty_iff]
      rw [auditLanes, drafts, if_neg (by decide), if_neg filled]
      exact auditLanes_eq_ok fun other member => ready other (List.mem_cons_of_mem lane member)

theorem auditWaiting_eq_ok : ∀ {queue : List RequestId},
    (∀ id ∈ queue, ∃ ticket, s.tickets.get? id = some ticket ∧
      ∀ lane ∈ ticket.lanes, lane.drafts = [] ∧ lane.pending ≠ []) →
    s.auditWaiting queue = .ok ()
  | [], _ => rfl
  | id :: rest, ready => by
      obtain ⟨ticket, found, lanes⟩ := ready id List.mem_cons_self
      rw [auditWaiting, ticketOf_of_found found]
      show (auditLanes id ticket.lanes >>= fun _ => s.auditWaiting rest) = _
      rw [auditLanes_eq_ok lanes]
      exact auditWaiting_eq_ok fun other member => ready other (List.mem_cons_of_mem id member)

/-- Sequences that are live and not held twice are collected. -/
theorem auditSequences_eq_ok : ∀ (tickets : List Ticket) (held : List SequenceId),
    (∀ sequence ∈ tickets.filterMap (fun ticket => ticket.primary.sequence),
      sequence ∈ s.ids.live ∧ sequence ∉ held) →
    (tickets.filterMap fun ticket => ticket.primary.sequence).Nodup →
    ∃ all, s.auditSequences held tickets = .ok all ∧
      all.length =
        held.length + (tickets.filterMap fun ticket => ticket.primary.sequence).length
  | [], held, _, _ => ⟨held, rfl, rfl⟩
  | ticket :: rest, held, known, nodup => by
      unfold auditSequences
      cases attached : ticket.primary.sequence with
      | none =>
          simp only [List.filterMap_cons, attached] at known nodup ⊢
          exact auditSequences_eq_ok rest held known nodup
      | some sequence =>
          simp only [List.filterMap_cons, attached] at known nodup ⊢
          obtain ⟨live, new⟩ := known sequence List.mem_cons_self
          obtain ⟨absent, nodup⟩ := List.nodup_cons.mp nodup
          have owned : ¬ (sequence ∈ held ∨ (!s.ids.isLive sequence) = true) := by
            simp [new, SequenceIds.isLive, live]
          have later : ∀ other ∈ rest.filterMap fun ticket => ticket.primary.sequence,
              other ∈ s.ids.live ∧ other ∉ sequence :: held := by
            intro other member
            obtain ⟨live, new⟩ := known other (List.mem_cons_of_mem sequence member)
            refine ⟨live, List.mem_cons.not.mpr (not_or.mpr ⟨?_, new⟩)⟩
            exact fun same => absent (same ▸ member)
          obtain ⟨all, collected, length⟩ :=
            auditSequences_eq_ok rest (sequence :: held) later nodup
          refine ⟨all, ?_, ?_⟩
          · rw [if_neg owned]
            exact collected
          · rw [length, List.length_cons, List.length_cons]
            omega

/-- The sequences held are those that requests hold, in the order of their ids. -/
theorem sequences_eq (s : Scheduler) :
    (s.tickets.values.filterMap fun ticket => ticket.primary.sequence) =
      s.tickets.keys.filterMap s.sequenceOf? := by
  unfold Registry.values Registry.keys
  rw [List.filterMap_map, List.filterMap_map]
  refine List.filterMap_congr fun entry member => ?_
  have found : s.tickets.get? entry.1 = some entry.2 := Registry.get?_eq_some_iff.mpr member
  exact (sequenceOf?_of_found found).symm

/-- **The audit** of consistent bookkeeping finds nothing, if the running requests were fed and the
waiting ones are prepared for it. -/
theorem audit_eq_ok (consistent : s.Consistent)
    (fed : ∀ id ∈ s.running, ∀ ticket, s.tickets.get? id = some ticket →
      ticket.primary.pending = [] ∧ ticket.primary.committed ≠ [])
    (ready : ∀ id ∈ s.waiting, ∀ ticket, s.tickets.get? id = some ticket →
      ∀ lane ∈ ticket.lanes, lane.drafts = [] ∧ lane.pending ≠ []) : s.audit = .ok () := by
  have queue : s.auditQueue [] (s.running ++ s.waiting) = .ok () :=
    auditQueue_eq_ok (fun id queued => ⟨(consistent.known id).mp queued, List.not_mem_nil⟩)
      consistent.nodup
  have size : (s.running ++ s.waiting).length = s.tickets.size := by
    have perm := (List.perm_ext_iff_of_nodup consistent.nodup s.tickets.nodup_keys).mpr
      consistent.known
    rw [perm.length_eq, Registry.length_keys]
  have running : s.auditRunning 0 s.running = .ok s.totals.occupied := by
    have sum := auditRunning_eq_ok s.running 0 fun id runs => by
      obtain ⟨ticket, found⟩ := consistent.found_of_running runs
      exact ⟨ticket, found, fed id runs ticket found⟩
    rw [Nat.zero_add, ← consistent.occupied] at sum
    exact sum consistent.countable
  have waiting : s.auditWaiting s.waiting = .ok () := auditWaiting_eq_ok fun id waits => by
    obtain ⟨ticket, found⟩ := consistent.found_of_queued (List.mem_append_right _ waits)
    exact ⟨ticket, found, ready id waits ticket found⟩
  have nodup : (s.tickets.keys.filterMap s.sequenceOf?).Nodup :=
    List.Nodup.filterMap consistent.owner s.tickets.nodup_keys
  have member : ∀ sequence, sequence ∈ s.tickets.keys.filterMap s.sequenceOf? ↔
      sequence ∈ s.ids.live := fun sequence => by
    rw [List.mem_filterMap, consistent.live]
    constructor
    · rintro ⟨id, _, held⟩
      exact ⟨id, held⟩
    · rintro ⟨id, held⟩
      obtain ⟨ticket, found, _⟩ := sequenceOf?_eq_some_iff.mp held
      exact ⟨id, Registry.mem_keys_iff.mpr ⟨ticket, found⟩, held⟩
  have known : ∀ sequence ∈ s.tickets.values.filterMap (fun ticket => ticket.primary.sequence),
      sequence ∈ s.ids.live ∧ sequence ∉ [] := fun sequence there => by
    rw [sequences_eq, member] at there
    exact ⟨there, List.not_mem_nil⟩
  obtain ⟨held, sequences, count⟩ :=
    auditSequences_eq_ok s.tickets.values [] known (by rw [sequences_eq]; exact nodup)
  have lives : held.length = s.ids.liveCount := by
    have perm := (List.perm_ext_iff_of_nodup nodup consistent.ids.nodup_live).mpr member
    rw [count, List.length_nil, Nat.zero_add, sequences_eq, perm.length_eq]
    rfl
  have clean : Yields s.audit (fun _ => True) (fun _ => False) := by
    unfold audit
    dsimp only
    rw [yields_bind, queue, yields_ok, if_neg (not_not.mpr size), yields_bind, running, yields_ok,
      yields_bind, waiting, yields_ok, yields_bind, sequences, yields_ok,
      if_neg (not_not.mpr lives), if_neg (not_not.mpr rfl)]
    trivial
  cases ended : s.audit with
  | ok => rfl
  | error stop => exact (clean.of_error ended).elim

end ContinuousBatching.Scheduler
