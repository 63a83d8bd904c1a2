/-
**Whoever is admitted runs, and nobody else is touched.**

An admission moves requests from the front of the waiting queue to the back of the running queue,
one at a time. Each of them is attached to one new sequence on all of its lanes, which is registered
with every cache; the others keep their tickets, their places and their sequences
(`Cluster.Seated`).

* `Seated.refl`, `Seated.cons`: nobody, and one request more in front;
* `startWhile_seats`: what an admission by any test does, also if it is refused in the middle;
* `startWhile_cons`: an admission that admits the front one, step by step.
-/

import ContinuousBatching.Proofs.Scheduler.Histories

namespace ContinuousBatching.Cluster

variable {c d : Cluster} {caches : List PagedCache} {id : RequestId} {ticket : Ticket}
  {rest more : List RequestId}

/-- These requests of the front of the waiting queue run now, and the others were left alone. -/
structure Seated (c : Cluster) (ids : List RequestId) (d : Cluster) : Prop where
  inOrder : d.InOrder
  running : d.scheduler.running = c.scheduler.running ++ ids
  waiting : c.scheduler.waiting = ids ++ d.scheduler.waiting
  /-- Each has one sequence on all of its lanes. -/
  own : ∀ id ∈ ids, ∃ ticket sequence, c.scheduler.tickets.get? id = some ticket ∧
    d.scheduler.tickets.get? id = some (ticket.attachAll (some sequence))
  others : ∀ id, id ∉ ids → d.scheduler.tickets.get? id = c.scheduler.tickets.get? id
  caches : d.caches = c.caches.map fun cache =>
    cache.registeredAll (ids.filterMap d.scheduler.sequenceOf?)
  prefill : d.scheduler.totals.prefillLength = c.scheduler.totals.prefillLength
  decode : d.scheduler.totals.decodeLength = c.scheduler.totals.decodeLength
  trace : d.trace = c.trace
  delivered : d.delivered = c.delivered

namespace Seated

theorem refl (inOrder : c.InOrder) : c.Seated [] c := by
  refine ⟨inOrder, (List.append_nil _).symm, rfl, fun _ none => absurd none List.not_mem_nil,
    fun _ _ => rfl, ?_, rfl, rfl, rfl, rfl⟩
  exact (List.map_id _).symm

/-- **One request more**, in front of the others. -/
theorem cons {sequence : SequenceId} {ids : SequenceIds} (owned : c.Owned caches)
    (front : c.scheduler.waiting = id :: rest) (found : c.scheduler.tickets.get? id = some ticket)
    (owned' : (c.started caches id ticket sequence ids).Owned
      (caches.map fun cache => cache.registered sequence))
    (seated : (c.started caches id ticket sequence ids).Seated more d) :
    c.Seated (id :: more) d := by
  have later : rest = more ++ d.scheduler.waiting :=
    (waiting_started front).symm.trans seated.waiting
  have absent : id ∉ more := by
    have nodup := owned.consistent.nodup_waiting
    rw [front, later, List.nodup_cons] at nodup
    exact fun member => nodup.1 (List.mem_append_left _ member)
  have tickets : ∀ other, (c.started caches id ticket sequence ids).scheduler.tickets.get? other =
      if other = id then some (ticket.attachAll (some sequence))
      else c.scheduler.tickets.get? other := fun _ => Registry.get?_insert ..
  have here : d.scheduler.tickets.get? id = some (ticket.attachAll (some sequence)) := by
    rw [seated.others id absent, tickets, if_pos rfl]
  refine ⟨seated.inOrder, ?_, ?_, fun other member => ?_, fun other apart => ?_, ?_,
    seated.prefill, seated.decode, seated.trace, seated.delivered⟩
  · rw [seated.running]
    exact List.append_assoc _ [id] more
  · rw [front, later]
    rfl
  · rcases List.mem_cons.mp member with rfl | member
    · exact ⟨ticket, sequence, found, here⟩
    · have differ : other ≠ id := fun same => absent (same ▸ member)
      obtain ⟨old, new, was, is⟩ := seated.own other member
      rw [tickets, if_neg differ] at was
      exact ⟨old, new, was, is⟩
  · obtain ⟨differ, apart⟩ := not_or.mp (List.mem_cons.not.mp apart)
    rw [seated.others other apart, tickets, if_neg differ]
  · have held : d.scheduler.sequenceOf? id = some sequence := Scheduler.sequenceOf?_of_found here
    rw [seated.caches, owned'.caches_eq, owned.caches_eq, List.map_map,
      List.filterMap_cons_some held]
    rfl

/-- An admitted request has one sequence on all of its lanes, which is registered with every cache
and which no other request holds. -/
theorem housed (seated : c.Seated more d) : ∀ id ∈ more, ∃ ticket sequence,
    d.scheduler.tickets.get? id = some ticket ∧
      (∀ lane ∈ ticket.lanes, lane.sequence = some sequence) ∧
      (∀ other, d.scheduler.sequenceOf? other = some sequence → other = id) ∧
      ∀ cache ∈ d.caches,
        cache.sequences.get? sequence = some ⟨.ofBlockSize cache.pool.blockSize, []⟩ := by
  intro id member
  obtain ⟨ticket, sequence, _, is⟩ := seated.own id member
  have held : d.scheduler.sequenceOf? id = some sequence := Scheduler.sequenceOf?_of_found is
  obtain ⟨_, owned⟩ := seated.inOrder
  refine ⟨_, sequence, is, fun lane attached => ?_, fun other same =>
    owned.consistent.owner other id sequence same held, fun cache there => ?_⟩
  · rw [Ticket.attachAll, Ticket.lanes_mapLanes] at attached
    obtain ⟨before, _, rfl⟩ := List.mem_map.mp attached
    rfl
  · rw [seated.caches] at there
    obtain ⟨before, _, rfl⟩ := List.mem_map.mp there
    obtain ⟨pool, registered⟩ := PagedCache.registeredAll_spec
      (more.filterMap d.scheduler.sequenceOf?) before sequence
    rw [registered, pool, if_pos (List.mem_filterMap.mpr ⟨id, member, held⟩)]

end Seated

section Tests

variable {π : Type} {slots : Nat} {test : AdmissionTest π}

/-- An admission that admits the request at the front goes on with the rest. -/
theorem startWhile_cons {notes later : π} {e : Cluster}
    (room : c.scheduler.running.length < slots)
    (found : c.scheduler.tickets.get? id = some ticket)
    (accepted : test notes ticket c.replicas = .ok (true, later))
    (started : start id c = .ok () e)
    (run : startWhile slots test later rest e = .ok more d) :
    startWhile slots test notes (id :: rest) c = .ok (id :: more) d := by
  refine Meets.run_eq (startWhile_rule (fun turned => ?_) (fun absent => ?_)
    (fun ticket' stop found' failed => ?_) fun ticket' later' found' _ accepted' => ?_)
  · obtain ⟨ticket', later', found', declined⟩ := turned room
    cases found.symm.trans found'
    cases accepted.symm.trans declined
  · cases found.symm.trans absent
  · cases found.symm.trans found'
    cases accepted.symm.trans failed
  · cases found.symm.trans found'
    cases accepted.symm.trans accepted'
    rw [meets_iff_of_ok started, meets_iff_of_ok run]
    exact ⟨rfl, rfl⟩

/-- Nobody is admitted where no slot is free. -/
theorem startWhile_full (notes : π) (list : List RequestId) (c : Cluster) :
    startWhile c.scheduler.running.length test notes list c = .ok [] c := by
  cases list with
  | nil => rfl
  | cons id rest =>
      refine Meets.run_eq ?_
      unfold startWhile
      rw [meets_bind, meets_get, if_neg (Nat.lt_irrefl _)]
      exact ⟨rfl, rfl⟩

/-- Why an admission is refused with this request at the front: the sequence ids are used up and it
has none to give back, or the test was refused. -/
def Unstartable (test : AdmissionTest π) (d : Cluster) (id : RequestId) (cause : Failure) : Prop :=
  (cause = .sequenceIdsExhausted d.scheduler.ids.capacity ∧ d.scheduler.sequenceOf? id = none) ∨
    ∃ notes ticket, test notes ticket d.replicas = .error (.refused cause)

/-- An admission was refused with somebody at the front of the queue. Those whom it admitted before
are the ones that it would admit into just as many slots. -/
def CutShort (test : AdmissionTest π) (notes : π) (list : List RequestId) (c : Cluster)
    (cause : Failure) (d : Cluster) : Prop :=
  ∃ ids id rest, c.Seated ids d ∧ d.scheduler.waiting = id :: rest ∧
    Unstartable test d id cause ∧
    startWhile (c.scheduler.running.length + ids.length) test notes list c = .ok ids d

/-- Nobody was admitted before. -/
theorem CutShort.first {notes : π} {list : List RequestId} {cause : Failure} (inOrder : c.InOrder)
    (front : c.scheduler.waiting = id :: rest) (unstartable : Unstartable test c id cause) :
    CutShort test notes list c cause c :=
  ⟨[], id, rest, .refl inOrder, front, unstartable, startWhile_full notes list c⟩

/-- **An admission by any test.** It seats whom it admits, also if it is refused in the middle. The
requests still to be looked at are the waiting ones. -/
theorem startWhile_seats :
    ∀ (list : List RequestId) (notes : π) (c : Cluster), c.InOrder → c.scheduler.waiting = list →
      Meets (startWhile slots test notes list) c (fun ids d => c.Seated ids d)
        (fun stop d => ∀ cause, stop = .refused cause → CutShort test notes list c cause d)
  | [], _, _, inOrder, _ => .refl inOrder
  | id :: rest, notes, c, ⟨caches, owned⟩, front => by
      refine owned.startWhile_rule front (fun _ => .refl ⟨caches, owned⟩) ?_ ?_ ?_ ?_
      · rintro ticket _ _ failed cause rfl
        exact .first ⟨caches, owned⟩ front (Or.inr ⟨notes, ticket, failed⟩)
      · rintro _ unattached _ cause ⟨⟩
        exact .first ⟨caches, owned⟩ front (Or.inl ⟨rfl, unattached⟩)
      · rintro _ cause ⟨⟩
      · intro ticket later sequence ids found _ tested _ started kept
        refine (startWhile_seats rest later _ ⟨_, kept⟩ (waiting_started front)).mono
          (fun more d seated => seated.cons owned front found kept)
          (fun stop d refused cause same => ?_)
        obtain ⟨more, other, others, seated, front', unstartable, run⟩ := refused cause same
        refine ⟨id :: more, other, others, seated.cons owned front found kept, front',
          unstartable, ?_⟩
        have longer : (c.started caches id ticket sequence ids).scheduler.running.length =
            c.scheduler.running.length + 1 := List.length_append
        rw [longer, Nat.add_right_comm, Nat.add_assoc] at run
        exact startWhile_cons (Nat.lt_add_of_pos_right (Nat.succ_pos _)) found tested started run

end Tests

end ContinuousBatching.Cluster
