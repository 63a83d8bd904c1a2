/-
**A round of reports, member by member.**

A round lets requests report, delivers their records in one batch, and ends whoever finished. The
members of a list answer as they would alone (`report_hears`), and whoever ends leaves the others
alone. So the members of a round do not influence each other:

* `reclaim_ends`: what is left when some running requests have ended is written out, and their
  order does not matter for it;
* `processTo_of_report`: between the reports and the end of whoever finished, the sink is called
  once, with the whole batch, while everybody is still there;
* `process_rounds`, `Round.matches`: what the whole round comes to, and that its order does not
  matter for that;
* `process_by_member`: in any state that operations lead to.
-/

import ContinuousBatching.Proofs.Cache.Capacity
import ContinuousBatching.Proofs.Scheduler.Answers

namespace ContinuousBatching

namespace Cluster

variable {c d e : Cluster} {caches : List PagedCache} {id : RequestId} {ids : List RequestId}
  {ticket next : Ticket} {delta : Delta} {tokenizer : Tokenizer} {maxLength : Nat}

/-! ### Whoever finished -/

/-- A sum over the tickets of some requests. -/
def sumOf (f : Ticket → Nat) (c : Cluster) (ids : List RequestId) : Nat :=
  (ids.map fun id => ((c.scheduler.tickets.get? id).map f).getD 0).sum

/-- The input positions of some requests. -/
def inputsOf (c : Cluster) (ids : List RequestId) : Nat :=
  sumOf (fun ticket => ticket.request.inputLength) c ids

/-- The tokens that some requests generated after their first. -/
def outputsOf (c : Cluster) (ids : List RequestId) : Nat :=
  sumOf (fun ticket => ticket.primary.committed.length - 1) c ids

/-- These running requests have ended, and the others were left alone. -/
structure Ended (c : Cluster) (ids : List RequestId) (d : Cluster) : Prop where
  inOrder : d.InOrder
  running : d.scheduler.running = c.scheduler.running.filter fun id => id ∉ ids
  waiting : d.scheduler.waiting = c.scheduler.waiting
  tickets : ∀ id, d.scheduler.tickets.get? id =
    if id ∈ ids then none else c.scheduler.tickets.get? id
  prefill : d.scheduler.totals.prefillLength = c.scheduler.totals.prefillLength + c.inputsOf ids
  decode : d.scheduler.totals.decodeLength = c.scheduler.totals.decodeLength + c.outputsOf ids
  caches : d.caches = c.caches.map fun cache =>
    cache.withoutAll (ids.filterMap c.scheduler.sequenceOf?)
  delivered : d.delivered = c.delivered

/-- What is counted of these requests when they end needs no more than 64 bits. -/
def Countable (c : Cluster) (ids : List RequestId) : Prop :=
  ids ≠ [] → c.scheduler.totals.prefillLength + c.inputsOf ids < Count.limit ∧
    c.scheduler.totals.decodeLength + c.outputsOf ids < Count.limit

theorem Ended.refl (inOrder : c.InOrder) : c.Ended [] c := by
  refine ⟨inOrder, ?_, rfl, fun _ => rfl, rfl, rfl, ?_, rfl⟩
  · simp
  · exact (List.map_id _).symm

section Cons

variable {rest : List RequestId} {sequence : SequenceId} {sequenceIds : SequenceIds}

theorem get?_ended (other : RequestId) :
    (c.ended caches id ticket sequence sequenceIds).scheduler.tickets.get? other =
      if other = id then none else c.scheduler.tickets.get? other :=
  Registry.get?_erase ..

theorem get?_ended_of_mem (absent : id ∉ rest) {other : RequestId} (member : other ∈ rest) :
    (c.ended caches id ticket sequence sequenceIds).scheduler.tickets.get? other =
      c.scheduler.tickets.get? other := by
  have differ : other ≠ id := fun same => absent (same ▸ member)
  rw [get?_ended, if_neg differ]

theorem sumOf_cons (found : c.scheduler.tickets.get? id = some ticket) (absent : id ∉ rest)
    (f : Ticket → Nat) : sumOf f c (id :: rest) =
      f ticket + sumOf f (c.ended caches id ticket sequence sequenceIds) rest := by
  rw [sumOf, List.map_cons, List.sum_cons, found, sumOf]
  refine congrArg _ (sum_map_congr fun other member => ?_)
  rw [get?_ended_of_mem absent member]

theorem countable_cons (found : c.scheduler.tickets.get? id = some ticket) (absent : id ∉ rest) :
    c.Countable (id :: rest) ↔
      (c.scheduler.totals.prefillLength + ticket.request.inputLength < Count.limit ∧
        c.scheduler.totals.decodeLength + (ticket.primary.committed.length - 1) < Count.limit) ∧
      (c.ended caches id ticket sequence sequenceIds).Countable rest := by
  have prefill : (c.ended caches id ticket sequence sequenceIds).scheduler.totals.prefillLength =
      c.scheduler.totals.prefillLength + ticket.request.inputLength := rfl
  have decode : (c.ended caches id ticket sequence sequenceIds).scheduler.totals.decodeLength =
      c.scheduler.totals.decodeLength + (ticket.primary.committed.length - 1) := rfl
  have inputs : c.inputsOf (id :: rest) = ticket.request.inputLength +
      (c.ended caches id ticket sequence sequenceIds).inputsOf rest := sumOf_cons found absent _
  have outputs : c.outputsOf (id :: rest) = (ticket.primary.committed.length - 1) +
      (c.ended caches id ticket sequence sequenceIds).outputsOf rest := sumOf_cons found absent _
  have some : id :: rest ≠ [] := List.cons_ne_nil _ _
  rw [Countable, Countable, inputs, outputs, prefill, decode, ← Nat.add_assoc, ← Nat.add_assoc,
    imp_iff_right some]
  constructor
  · intro all
    exact ⟨by omega, fun _ => all⟩
  · rintro ⟨first, later⟩
    by_cases last : rest = []
    · subst last
      exact first
    · exact later last

/-- **One request more** that ends, before the others. -/
theorem Ended.cons (owned : c.Owned caches) (found : c.scheduler.tickets.get? id = some ticket)
    (attached : ticket.primary.sequence = some sequence)
    (owned' : (c.ended caches id ticket sequence sequenceIds).Owned
      (caches.map fun cache => cache.without sequence)) (absent : id ∉ rest)
    (ended : (c.ended caches id ticket sequence sequenceIds).Ended rest d) :
    c.Ended (id :: rest) d := by
  refine ⟨ended.inOrder, ?_, ended.waiting, fun other => ?_, ?_, ?_, ?_, ended.delivered⟩
  · rw [ended.running]
    show (c.scheduler.running.erase id).filter _ = _
    rw [owned.consistent.nodup_running.erase_eq_filter, List.filter_filter]
    refine List.filter_congr fun other _ => ?_
    by_cases same : other = id <;> simp [same]
  · rw [ended.tickets, get?_ended]
    by_cases same : other = id <;> simp [same]
  · rw [ended.prefill, inputsOf, inputsOf, sumOf_cons found absent, ← Nat.add_assoc]
    rfl
  · rw [ended.decode, outputsOf, outputsOf, sumOf_cons found absent, ← Nat.add_assoc]
    rfl
  · have held : c.scheduler.sequenceOf? id = some sequence :=
      (Scheduler.sequenceOf?_of_found found).trans attached
    have same :
        rest.filterMap (c.ended caches id ticket sequence sequenceIds).scheduler.sequenceOf? =
          rest.filterMap c.scheduler.sequenceOf? := by
      refine List.filterMap_congr fun other member => ?_
      rw [Scheduler.sequenceOf?, Scheduler.sequenceOf?, get?_ended_of_mem absent member]
    rw [ended.caches, owned'.caches_eq, owned.caches_eq, List.map_map, same,
      List.filterMap_cons_some held]
    rfl

end Cons

/-- **The end of some running requests.** -/
theorem reclaim_ends : ∀ (ids : List RequestId) (c : Cluster), c.InOrder → ids.Nodup →
    (∀ id ∈ ids, id ∈ c.scheduler.running) →
    Meets (reclaim ids) c (fun _ d => c.Ended ids d ∧ c.Countable ids)
      (fun stop _ => stop = .fault .overflow ∧ ¬ c.Countable ids)
  | [], c, inOrder, _, _ => ⟨.refl inOrder, fun some => absurd rfl some⟩
  | id :: rest, c, ⟨caches, owned⟩, nodup, runs => by
      obtain ⟨absent, nodup⟩ := List.nodup_cons.mp nodup
      have here := runs id List.mem_cons_self
      obtain ⟨ticket, found⟩ := owned.consistent.found_of_running here
      show Meets (reclaimOne id >>= fun _ => reclaim rest) c _ _
      rw [meets_bind]
      refine (reclaimOne_meets owned here found).mono ?_ ?_
      · rintro _ _ ⟨sequence, sequenceIds, attached, _, rfl, owned', prefill, decode⟩
        refine (reclaim_ends rest _ ⟨_, owned'⟩ nodup fun other member => ?_).mono ?_ ?_
        · have differ : other ≠ id := fun same => absent (same ▸ member)
          exact (List.mem_erase_of_ne differ).mpr (runs other (List.mem_cons_of_mem _ member))
        · rintro _ d ⟨ended, countable⟩
          exact ⟨ended.cons owned found attached owned' absent,
            (countable_cons found absent).mpr ⟨⟨prefill, decode⟩, countable⟩⟩
        · rintro stop _ ⟨rfl, large⟩
          exact ⟨rfl, fun all => large ((countable_cons found absent).mp all).2⟩
      · rintro stop _ ⟨rfl, large⟩
        refine ⟨rfl, fun all => ?_⟩
        have first : _ ∧ (c.ended caches id ticket 0 c.scheduler.ids).Countable rest :=
          (countable_cons found absent).mp all
        omega

theorem sumOf_perm {first second : List RequestId} (perm : first.Perm second) (f : Ticket → Nat) :
    sumOf f c first = sumOf f c second :=
  (perm.map _).sum_nat

/-- Some of the requests are counted if all of them are. -/
theorem Countable.of_subset {some all : List RequestId} (countable : c.Countable all)
    (nodup : some.Nodup) (subset : some ⊆ all) : c.Countable some := by
  intro somebody
  obtain ⟨id, member⟩ := List.exists_mem_of_ne_nil some somebody
  obtain ⟨prefill, decode⟩ := countable (List.ne_nil_of_mem (subset member))
  have inputs : c.inputsOf some ≤ c.inputsOf all := sum_map_le_of_subset _ nodup subset
  have outputs : c.outputsOf some ≤ c.outputsOf all := sum_map_le_of_subset _ nodup subset
  omega

/-! ### The whole round -/

/-- Whether a request finishes when it is asked. -/
def finishes (tokenizer : Tokenizer) (maxLength : Nat) (c : Cluster) (id : RequestId) : Bool :=
  (c.recordsFor tokenizer maxLength id).any fun r => r.finish.isSome

/-- Those that finish according to a batch are the members of it that finish when they are asked. -/
theorem finishedIn_batchOf (c : Cluster) (ids : List RequestId) :
    finishedIn (c.batchOf tokenizer maxLength ids) =
      ids.eraseDups.filter (c.finishes tokenizer maxLength) := by
  unfold batchOf
  induction ids.eraseDups with
  | nil => rfl
  | cons id rest ih =>
      rw [List.flatMap_cons, List.filter_cons, ← ih]
      unfold finishedIn finishes
      rw [List.filter_append, List.map_append]
      rcases recordsFor_spec tokenizer maxLength c id with none | ⟨r, single, rfl⟩
      · simp [none]
      · cases ends : r.finish.isSome <;> simp [single, ends]

theorem nodup_finishedIn (c : Cluster) (ids : List RequestId) :
    (finishedIn (c.batchOf tokenizer maxLength ids)).Nodup := by
  rw [finishedIn_batchOf]
  exact (nodup_eraseDups ids).filter _

theorem mem_finishedIn_batchOf : id ∈ finishedIn (c.batchOf tokenizer maxLength ids) ↔
    id ∈ ids ∧ c.finishes tokenizer maxLength id = true := by
  rw [finishedIn_batchOf, List.mem_filter, List.mem_eraseDups]

/-- The same members finish, in whatever order they are listed. -/
theorem finishedIn_perm {ids' : List RequestId} (c : Cluster) (perm : ids.Perm ids') :
    (finishedIn (c.batchOf tokenizer maxLength ids)).Perm
      (finishedIn (c.batchOf tokenizer maxLength ids')) := by
  rw [finishedIn_batchOf, finishedIn_batchOf]
  exact (eraseDups_perm perm).filter _

section Counted

variable {batch : List StreamRecord}

/-- Reports do not change what is counted of a request when it ends. -/
theorem Heard.inputsOf_eq (heard : Heard tokenizer maxLength c ids batch d)
    (list : List RequestId) : d.inputsOf list = c.inputsOf list :=
  sum_map_congr fun id _ => by
    rw [heard.map_get? fun _ _ reported => by rw [reported.request]]

theorem Heard.outputsOf_eq (heard : Heard tokenizer maxLength c ids batch d)
    (list : List RequestId) : d.outputsOf list = c.outputsOf list :=
  sum_map_congr fun id _ => by
    rw [heard.map_get? fun _ _ reported => by rw [reported.primary]]

theorem Heard.countable_iff (heard : Heard tokenizer maxLength c ids batch d)
    (list : List RequestId) : d.Countable list ↔ c.Countable list := by
  rw [Countable, Countable, heard.inputsOf_eq, heard.outputsOf_eq, heard.same]

end Counted

/-- Two requests are heard alike, whoever else reports. -/
theorem Heard.get?_eq {ids' : List RequestId} {batch batch' : List StreamRecord}
    (heard : Heard tokenizer maxLength c ids batch d)
    (heard' : Heard tokenizer maxLength c ids' batch' e) (same : id ∈ ids ↔ id ∈ ids') :
    d.scheduler.tickets.get? id = e.scheduler.tickets.get? id := by
  by_cases member : id ∈ ids
  · obtain ⟨_, next, answered, now⟩ := heard.own id member
    obtain ⟨_, next', answered', now'⟩ := heard'.own id (same.mp member)
    cases answered.symm.trans answered'
    rw [now, now']
  · rw [heard.others id member, heard'.others id (same.not.mp member)]

/-- What a round comes to: these requests reported, their records were delivered while everybody was
still there, and whoever finished has ended. -/
structure Concluded (tokenizer : Tokenizer) (maxLength : Nat) (c : Cluster) (ids : List RequestId)
    (e d : Cluster) : Prop where
  reported : report tokenizer maxLength ids c = .ok (c.batchOf tokenizer maxLength ids) e
  heard : Heard tokenizer maxLength c ids (c.batchOf tokenizer maxLength ids) e
  reclaimed : reclaim (finishedIn (c.batchOf tokenizer maxLength ids))
    { e with delivered := c.delivered ++ [c.batchOf tokenizer maxLength ids] } = .ok () d
  ended : Ended { e with delivered := c.delivered ++ [c.batchOf tokenizer maxLength ids] }
    (finishedIn (c.batchOf tokenizer maxLength ids)) d

/-- **A round** ends whoever finished, or it is stopped by one of the reports or because a sum of
lengths needs more than 64 bits. -/
theorem process_rounds (inOrder : c.InOrder) (runs : ∀ id ∈ ids, id ∈ c.scheduler.running) :
    Meets (process ids tokenizer maxLength) c
      (fun finished d => finished = finishedIn (c.batchOf tokenizer maxLength ids) ∧
        (∃ e, Concluded tokenizer maxLength c ids e d) ∧
        c.Countable (finishedIn (c.batchOf tokenizer maxLength ids)))
      (fun stop _ => (∃ id ∈ ids, c.answer tokenizer maxLength id = .error stop) ∨
        (stop = .fault .overflow ∧
          ¬ c.Countable (finishedIn (c.batchOf tokenizer maxLength ids)))) := by
  rw [meets_process]
  refine ((report_hears ids c).with_run.and (report_keeps ids c inOrder)).mono ?_
    (fun _ _ stopped => Or.inl stopped.1)
  rintro batch e ⟨⟨heard, run⟩, evolves⟩
  obtain rfl := heard.batch
  have delivered : e.delivered = c.delivered := by rw [heard.same]
  have running : e.scheduler.running = c.scheduler.running := by rw [heard.same]
  obtain ⟨_, owned⟩ := evolves.inOrder
  rw [delivered]
  refine (reclaim_ends _ { e with delivered := c.delivered ++ [_] } ⟨_, owned.congr rfl rfl⟩
    (nodup_finishedIn c ids) fun id member => ?_).with_run.mono ?_ ?_
  · show id ∈ e.scheduler.running
    rw [running]
    exact runs id (mem_finishedIn_batchOf.mp member).1
  · rintro _ d ⟨⟨ended, countable⟩, reclaimed⟩
    exact ⟨rfl, ⟨e, run, heard, reclaimed, ended⟩, (heard.countable_iff _).mp countable⟩
  · rintro stop _ ⟨rfl, large⟩
    exact Or.inr ⟨rfl, fun all => large ((heard.countable_iff _).mpr all)⟩

namespace Concluded

/-- What is left of a ticket. -/
theorem tickets (concluded : Concluded tokenizer maxLength c ids e d) (id : RequestId) :
    d.scheduler.tickets.get? id =
      if id ∈ finishedIn (c.batchOf tokenizer maxLength ids) then none
      else e.scheduler.tickets.get? id :=
  concluded.ended.tickets id

theorem running (concluded : Concluded tokenizer maxLength c ids e d) :
    d.scheduler.running = c.scheduler.running.filter fun id =>
      id ∉ finishedIn (c.batchOf tokenizer maxLength ids) := by
  have same : e.scheduler.running = c.scheduler.running := by rw [concluded.heard.same]
  rw [concluded.ended.running, same]

theorem waiting (concluded : Concluded tokenizer maxLength c ids e d) :
    d.scheduler.waiting = c.scheduler.waiting := by
  rw [concluded.ended.waiting, concluded.heard.same]

/-- The lengths of those that finished are counted. -/
theorem prefill (concluded : Concluded tokenizer maxLength c ids e d) :
    d.scheduler.totals.prefillLength = c.scheduler.totals.prefillLength +
      c.inputsOf (finishedIn (c.batchOf tokenizer maxLength ids)) := by
  have totals : e.scheduler.totals = c.scheduler.totals := by rw [concluded.heard.same]
  rw [concluded.ended.prefill, ← totals, ← concluded.heard.inputsOf_eq]
  rfl

theorem decode (concluded : Concluded tokenizer maxLength c ids e d) :
    d.scheduler.totals.decodeLength = c.scheduler.totals.decodeLength +
      c.outputsOf (finishedIn (c.batchOf tokenizer maxLength ids)) := by
  have totals : e.scheduler.totals = c.scheduler.totals := by rw [concluded.heard.same]
  rw [concluded.ended.decode, ← totals, ← concluded.heard.outputsOf_eq]
  rfl

/-- The caches are without the sequences of those that ended. -/
theorem caches_eq (concluded : Concluded tokenizer maxLength c ids e d) :
    d.caches = c.caches.map fun cache => cache.withoutAll
      ((finishedIn (c.batchOf tokenizer maxLength ids)).filterMap c.scheduler.sequenceOf?) := by
  have replicas : e.caches = c.caches := by
    rw [Cluster.caches, Cluster.caches, concluded.heard.same]
  rw [concluded.ended.caches, ← replicas, ← concluded.heard.sequenceOf?_eq]
  rfl

/-- A sequence of somebody who did not end is what it was, in every cache. -/
theorem contents (inOrder : c.InOrder) (concluded : Concluded tokenizer maxLength c ids e d)
    (absent : id ∉ ids) {sequence : SequenceId}
    (held : c.scheduler.sequenceOf? id = some sequence) :
    d.caches.map (fun cache => cache.sequences.get? sequence) =
      c.caches.map fun cache => cache.sequences.get? sequence := by
  obtain ⟨_, owned⟩ := inOrder
  rw [concluded.caches_eq, List.map_map]
  refine List.map_congr_left fun cache _ => ?_
  refine PagedCache.get?_withoutAll.trans (if_neg fun gone => absent ?_)
  obtain ⟨other, finished, held'⟩ := List.mem_filterMap.mp gone
  rw [owned.consistent.owner id other sequence held held']
  exact (mem_finishedIn_batchOf.mp finished).1

end Concluded

/-- Two clusters agree in everything but the order of what is free, what was written down and what
was delivered. -/
structure Matches (c d : Cluster) : Prop where
  running : c.scheduler.running = d.scheduler.running
  waiting : c.scheduler.waiting = d.scheduler.waiting
  tickets : ∀ id, c.scheduler.tickets.get? id = d.scheduler.tickets.get? id
  live : ∀ sequence, sequence ∈ c.scheduler.ids.live ↔ sequence ∈ d.scheduler.ids.live
  occupied : c.scheduler.totals.occupied = d.scheduler.totals.occupied
  prefill : c.scheduler.totals.prefillLength = d.scheduler.totals.prefillLength
  decode : c.scheduler.totals.decodeLength = d.scheduler.totals.decodeLength
  sequences : c.caches.map (fun cache => cache.sequences.get?) =
    d.caches.map fun cache => cache.sequences.get?
  free : c.caches.map (fun cache => cache.pool.freeCount) =
    d.caches.map fun cache => cache.pool.freeCount

/-- **The order of the members does not matter** for what a round leaves. -/
theorem Concluded.matches {ids' : List RequestId} {d' e' : Cluster} (inOrder : c.InOrder)
    (first : Concluded tokenizer maxLength c ids e d)
    (second : Concluded tokenizer maxLength c ids' e' d') (perm : ids.Perm ids') :
    d.Matches d' := by
  have finished : (finishedIn (c.batchOf tokenizer maxLength ids)).Perm
      (finishedIn (c.batchOf tokenizer maxLength ids')) := finishedIn_perm c perm
  have running : d.scheduler.running = d'.scheduler.running := by
    rw [first.running, second.running]
    exact List.filter_congr fun id _ => decide_eq_decide.mpr finished.mem_iff.not
  have tickets : ∀ id, d.scheduler.tickets.get? id = d'.scheduler.tickets.get? id := fun id => by
    rw [first.tickets, second.tickets, first.heard.get?_eq second.heard perm.mem_iff]
    exact if_congr finished.mem_iff rfl rfl
  obtain ⟨_, owned⟩ := inOrder
  obtain ⟨_, owned'⟩ := first.ended.inOrder
  obtain ⟨_, owned''⟩ := second.ended.inOrder
  have gone := finished.filterMap c.scheduler.sequenceOf?
  refine ⟨running, ?_, tickets, fun sequence => ?_, ?_, ?_, ?_, ?_, ?_⟩
  · rw [first.waiting, second.waiting]
  · rw [owned'.consistent.live, owned''.consistent.live]
    simp only [Scheduler.sequenceOf?, tickets]
  · rw [owned'.consistent.occupied, owned''.consistent.occupied, running]
    exact sum_map_congr fun id _ => by rw [Scheduler.occupiedBy, Scheduler.occupiedBy, tickets]
  · rw [first.prefill, second.prefill, inputsOf, inputsOf, sumOf_perm finished]
  · rw [first.decode, second.decode, outputsOf, outputsOf, sumOf_perm finished]
  · rw [first.caches_eq, second.caches_eq, List.map_map, List.map_map]
    exact List.map_congr_left fun cache _ => funext (PagedCache.get?_withoutAll_perm gone)
  · rw [first.caches_eq, second.caches_eq, List.map_map, List.map_map]
    refine List.map_congr_left fun cache member => ?_
    rw [owned.caches_eq] at member
    have sound := owned.sound cache member
    refine sound.withoutAll.freeCount_congr sound.withoutAll ?_ ?_
      (PagedCache.get?_withoutAll_perm gone)
    · simp
    · simp

/-! ### Any state that operations lead to -/

/-- Everybody is still there, with every sequence: nothing differs but how far requests reported,
how they ended and whether they were given up. -/
structure Unreclaimed (c e : Cluster) : Prop where
  same : e = { c with scheduler := { c.scheduler with tickets := e.scheduler.tickets } }
  tickets : ∀ id,
    Option.Rel Ticket.Reported (c.scheduler.tickets.get? id) (e.scheduler.tickets.get? id)

/-- **One round.** The members report, and the sink is called once with all of their records, while
everybody is still there, whatever the sink does; only when it is done, whoever finished ends.
Everybody who was not asked is left alone. -/
structure Round (tokenizer : Tokenizer) (maxLength : Nat) (c : Cluster) (ids : List RequestId)
    (d : Cluster) : Prop where
  run : process ids tokenizer maxLength c =
    .ok (finishedIn (c.batchOf tokenizer maxLength ids)) d
  phases : ∃ e, c.Unreclaimed e ∧
    report tokenizer maxLength ids c = .ok (c.batchOf tokenizer maxLength ids) e ∧
    (∀ sink, processTo sink ids tokenizer maxLength c = (do
      sink (c.batchOf tokenizer maxLength ids)
      reclaim (finishedIn (c.batchOf tokenizer maxLength ids))
      return finishedIn (c.batchOf tokenizer maxLength ids) : Action Cluster _) e) ∧
    deliver (c.batchOf tokenizer maxLength ids) e =
      .ok () { e with delivered := c.delivered ++ [c.batchOf tokenizer maxLength ids] } ∧
    reclaim (finishedIn (c.batchOf tokenizer maxLength ids))
      { e with delivered := c.delivered ++ [c.batchOf tokenizer maxLength ids] } = .ok () d
  delivered : d.delivered = c.delivered ++ [c.batchOf tokenizer maxLength ids]
  running : d.scheduler.running = c.scheduler.running.filter fun id =>
    id ∉ finishedIn (c.batchOf tokenizer maxLength ids)
  waiting : d.scheduler.waiting = c.scheduler.waiting
  others : ∀ id ∉ ids, d.scheduler.tickets.get? id = c.scheduler.tickets.get? id ∧
    ∀ sequence, c.scheduler.sequenceOf? id = some sequence →
      d.caches.map (fun cache => cache.sequences.get? sequence) =
        c.caches.map fun cache => cache.sequences.get? sequence

/-- Once the reports are there, the sink takes over, whatever it is. -/
theorem processTo_of_report {batch : List StreamRecord}
    (reported : report tokenizer maxLength ids c = .ok batch e)
    (sink : List StreamRecord → Action Cluster Unit) :
    processTo sink ids tokenizer maxLength c = (do
      sink batch
      reclaim (finishedIn batch)
      return finishedIn batch : Action Cluster _) e := by
  show EStateM.bind (report tokenizer maxLength ids) _ c = _
  rw [EStateM.bind, reported]

/-- A round with a run. -/
theorem Concluded.round (inOrder : c.InOrder) (concluded : Concluded tokenizer maxLength c ids e d)
    (run : process ids tokenizer maxLength c =
      .ok (finishedIn (c.batchOf tokenizer maxLength ids)) d) :
    Round tokenizer maxLength c ids d where
  run := run
  phases := by
    have earlier : e.delivered = c.delivered := by rw [concluded.heard.same]
    refine ⟨e, ⟨concluded.heard.same, concluded.heard.reported⟩, concluded.reported,
      fun sink => processTo_of_report concluded.reported sink, ?_, concluded.reclaimed⟩
    rw [← earlier]
    rfl
  delivered := concluded.ended.delivered
  running := concluded.running
  waiting := concluded.waiting
  others := fun id absent => by
    refine ⟨?_, fun sequence held => concluded.contents inOrder absent held⟩
    rw [concluded.tickets, if_neg fun finished => absent (mem_finishedIn_batchOf.mp finished).1]
    exact concluded.heard.others id absent

/-- If no failure of the tokenizer is fatal and every sum fits, there is a round. -/
theorem exists_round (inOrder : c.InOrder) (runs : ∀ id ∈ ids, id ∈ c.scheduler.running)
    (answers : ∀ id ∈ ids, ∃ result, c.answer tokenizer maxLength id = .ok result)
    (countable : c.Countable (finishedIn (c.batchOf tokenizer maxLength ids))) :
    ∃ d, Round tokenizer maxLength c ids d := by
  rcases (process_rounds inOrder runs).ends with
    ⟨finished, d, run, rfl, ⟨e, concluded⟩, _⟩ | ⟨_, _, _, ⟨id, member, stopped⟩ | ⟨_, large⟩⟩
  · exact ⟨d, concluded.round inOrder run⟩
  · obtain ⟨result, answered⟩ := answers id member
    cases answered.symm.trans stopped
  · exact absurd countable large

/-- Two rounds of the same requests end alike. -/
theorem Round.matches {ids' : List RequestId} {d' : Cluster} (inOrder : c.InOrder)
    (runs : ∀ id ∈ ids, id ∈ c.scheduler.running) (first : Round tokenizer maxLength c ids d)
    (second : Round tokenizer maxLength c ids' d') (perm : ids.Perm ids') : d.Matches d' := by
  obtain ⟨_, ⟨_, concluded⟩, _⟩ := (meets_iff_of_ok first.run).mp (process_rounds inOrder runs)
  obtain ⟨_, ⟨_, concluded'⟩, _⟩ := (meets_iff_of_ok second.run).mp
    (process_rounds inOrder fun id member => runs id (perm.mem_iff.mpr member))
  exact concluded.matches inOrder concluded' perm

/-- A member of a round is left with the ticket that it would have been left with alone. -/
theorem Round.ticket_eq {d' : Cluster} (inOrder : c.InOrder)
    (runs : ∀ id ∈ ids, id ∈ c.scheduler.running) (all : Round tokenizer maxLength c ids d)
    (alone : Round tokenizer maxLength c [id] d') (member : id ∈ ids) :
    d.scheduler.tickets.get? id = d'.scheduler.tickets.get? id := by
  obtain ⟨_, ⟨_, concluded⟩, _⟩ := (meets_iff_of_ok all.run).mp (process_rounds inOrder runs)
  obtain ⟨_, ⟨_, concluded'⟩, _⟩ := (meets_iff_of_ok alone.run).mp
    (process_rounds inOrder (List.forall_mem_singleton.mpr (runs id member)))
  have single : id ∈ ids ↔ id ∈ [id] := iff_of_true member List.mem_cons_self
  rw [concluded.tickets, concluded'.tickets, concluded.heard.get?_eq concluded'.heard single]
  refine if_congr ?_ rfl rfl
  rw [mem_finishedIn_batchOf, mem_finishedIn_batchOf, single]

/-- The members of a round do not influence each other. -/
structure Separable (tokenizer : Tokenizer) (maxLength : Nat) (c : Cluster) (ids : List RequestId) :
    Prop where
  /-- The round is carried out, in any order of its members. -/
  runs : ∀ ids' : List RequestId, ids'.Perm ids → ∃ d, Round tokenizer maxLength c ids' d
  /-- So is the round of each member alone. -/
  alone : ∀ id ∈ ids, ∃ d, Round tokenizer maxLength c [id] d
  /-- Alone it leaves these records: one of its own, or none. -/
  records : ∀ id ∈ ids, c.batchOf tokenizer maxLength [id] = c.recordsFor tokenizer maxLength id ∧
    (c.recordsFor tokenizer maxLength id = [] ∨
      ∃ r, c.recordsFor tokenizer maxLength id = [r] ∧ r.request = id)
  /-- It leaves none if it has nothing new to report. -/
  silent : ∀ id ∈ ids, ∀ ticket, c.scheduler.tickets.get? id = some ticket →
    (c.recordsFor tokenizer maxLength id = [] ↔
      ticket.finish ≠ none ∨ (ticket.abortRequested = false ∧ ticket.unreported = []))
  /-- Among the others it is left with the same ticket as alone. -/
  tickets : ∀ id ∈ ids, ∀ d d' : Cluster, Round tokenizer maxLength c ids d →
    Round tokenizer maxLength c [id] d' →
      d.scheduler.tickets.get? id = d'.scheduler.tickets.get? id
  /-- The batch follows the order of the members, and nothing else does. -/
  order : ∀ (ids' : List RequestId) (d d' : Cluster), ids'.Perm ids →
    Round tokenizer maxLength c ids d → Round tokenizer maxLength c ids' d' →
      (c.batchOf tokenizer maxLength ids').Perm (c.batchOf tokenizer maxLength ids) ∧ d.Matches d'

/-- **Members of a round do not influence each other.** Take any state that operations lead to, from
fresh caches on, any list of running requests, and a tokenizer whose failures are not fatal, and let
every count fit 64 bits. Then the round is carried out, and the sink is called once, before anybody
is reclaimed. Its batch consists of the records that the
members would leave alone, in the order in which they are listed first, whatever becomes of the
others; in another order the batch is ordered accordingly, and the round leaves the same. -/
theorem process_by_member {capacity lanes : Nat} {history : List Operation}
    (fresh : ∀ cache ∈ caches, cache.IsFresh)
    (reached : (ofReplicas (caches.map .paged) lanes (.ofCapacity capacity)).after history = some c)
    (runs : ∀ id ∈ ids, id ∈ c.scheduler.running)
    (lenient : ∀ tokens cause, tokenizer.decode tokens = .error cause → cause.isFatal = false)
    (fits : ∀ d, process ids tokenizer maxLength c ≠ .error (.fault .overflow) d) :
    c.Separable tokenizer maxLength ids := by
  have inOrder := inOrder_after ⟨caches, owned_ofReplicas fresh lanes capacity⟩ reached
  have ⟨_, owned⟩ := inOrder
  have stops : ∀ id ∈ ids, ∀ stop, c.answer tokenizer maxLength id = .error stop →
      stop = .fault .overflow := by
    intro id member stop stopped
    obtain ⟨ticket, found⟩ := owned.consistent.found_of_running (runs id member)
    rw [answer, Scheduler.ticketOf_of_found found] at stopped
    exact (ticket.report_lenient maxLength lenient).of_error stopped
  obtain ⟨answers, countable⟩ :
      (∀ id ∈ ids, ∃ result, c.answer tokenizer maxLength id = .ok result) ∧
      c.Countable (finishedIn (c.batchOf tokenizer maxLength ids)) := by
    rcases (process_rounds inOrder runs).ends with
      ⟨_, _, _, _, ⟨_, concluded⟩, countable⟩ | ⟨stop, d, run, ⟨id, member, stopped⟩ | ⟨rfl, _⟩⟩
    · refine ⟨fun id member => ?_, countable⟩
      obtain ⟨delta, next, answered, _⟩ := concluded.heard.own id member
      exact ⟨_, answered⟩
    · rw [stops id member stop stopped] at run
      exact absurd run (fits d)
    · exact absurd run (fits d)
  -- a part of the members counts no more than all of them
  have part : ∀ some : List RequestId, some ⊆ ids → ∃ d, Round tokenizer maxLength c some d := by
    intro some subset
    refine exists_round inOrder (fun id member => runs id (subset member))
      (fun id member => answers id (subset member))
      (countable.of_subset (nodup_finishedIn c some) fun id member => ?_)
    obtain ⟨listed, finishes⟩ := mem_finishedIn_batchOf.mp member
    exact mem_finishedIn_batchOf.mpr ⟨subset listed, finishes⟩
  constructor
  case runs => exact fun ids' perm => part ids' perm.subset
  case alone => exact fun id member => part [id] (List.cons_subset.mpr ⟨member, List.nil_subset _⟩)
  case records =>
    intro id member
    refine ⟨?_, recordsFor_spec tokenizer maxLength c id⟩
    simp [batchOf, List.eraseDups_cons]
  case silent =>
    intro id member ticket found
    obtain ⟨⟨delta, next⟩, answered⟩ := answers id member
    exact recordsFor_eq_nil_iff answered found
  case tickets => exact fun id member d d' all alone => all.ticket_eq inOrder runs alone member
  case order =>
    intro ids' d d' perm first second
    exact ⟨(eraseDups_perm perm).flatMap_right _, first.matches inOrder runs second perm.symm⟩

/-- A tokenizer that cannot decode one of the tokens. -/
def narrowTokenizer (unknown : TokenId) : Tokenizer :=
  { Tokenizer.bytes none with
    decode := fun tokens =>
      if unknown ∈ tokens then .error (.untranslatable (.unknownToken unknown))
      else (Tokenizer.bytes none).decode tokens }

theorem isFatal_narrowTokenizer {unknown : TokenId} {tokens : List TokenId} {cause : Failure}
    (failed : (narrowTokenizer unknown).decode tokens = .error cause) : cause.isFatal = false := by
  replace failed : (if unknown ∈ tokens then .error (.untranslatable (.unknownToken unknown))
    else (Tokenizer.bytes none).decode tokens) = Except.error cause := failed
  split at failed
  · cases failed
    rfl
  · cases failed

/-- A history in which one of three running requests has all its tokens, another one a token without
a text, and the third none. -/
def troubledHistory : List Operation :=
  let request (id : RequestId) (stops : List String) : Request :=
    ⟨id, [.tokens [1, 2]], { GenerationSettings.usual with maxTokens := 2, stopTexts := stops }⟩
  [.add (request "a" []), .add (request "b" ["x"]), .add (request "c" []),
    .start 3 (fun _ _ _ => (true, ())) (), .commit "a" 0 (.plain 65 .one),
    .commit "a" 0 (.plain 66 .one), .commit "b" 0 (.plain 0 .one)]

/-- The two that have something to report are told so, the second one first. -/
theorem process_by_member_troubled : ∃ c d,
    (ofReplicas ([PagedCache.ofSize "first" 4 2 countTokens,
      .ofSize "second" 2 3 countTokens].map .paged) 2 (.ofCapacity 3)).after troubledHistory =
      some c ∧
    (∀ id ∈ ["b", "a", "b", "c"], id ∈ c.scheduler.running) ∧
    process ["b", "a", "b", "c"] (narrowTokenizer 0) 10 c = .ok ["b", "a"] d ∧
    (c.batchOf (narrowTokenizer 0) 10 ["b", "a", "b", "c"]).map
      (fun r => (r.request, r.tokens, r.finish)) =
      [("b", [], some .abort), ("a", [65, 66], some .length)] ∧
    c.Separable (narrowTokenizer 0) 10 ["b", "a", "b", "c"] := by
  have ran : (do
      let c ← (ofReplicas ([PagedCache.ofSize "first" 4 2 countTokens,
        .ofSize "second" 2 3 countTokens].map .paged) 2 (.ofCapacity 3)).after troubledHistory
      let ending ← completed (process ["b", "a", "b", "c"] (narrowTokenizer 0) 10) c
      return decide (∀ id ∈ ["b", "a", "b", "c"], id ∈ c.scheduler.running) &&
        decide (ending.1 = ["b", "a"]) &&
        decide ((c.batchOf (narrowTokenizer 0) 10 ["b", "a", "b", "c"]).map
          (fun r => (r.request, r.tokens, r.finish)) =
          [("b", [], some .abort), ("a", [65, 66], some .length)])) = some true := by
    decide +kernel
  simp only [Option.bind_eq_bind, Option.bind_eq_some_iff, Option.pure_def, Option.some.injEq,
    Bool.and_eq_true, decide_eq_true_eq] at ran
  obtain ⟨c, reached, ⟨finished, d⟩, ended, ⟨runs, rfl⟩, batch⟩ := ran
  have run := completed_eq_some.mp ended
  have fresh : ∀ cache ∈ [PagedCache.ofSize "first" 4 2 countTokens,
      .ofSize "second" 2 3 countTokens], cache.IsFresh := by
    simp [PagedCache.IsFresh, PagedCache.ofSize, BlockPool.ofSize]
  refine ⟨c, d, reached, runs, run, batch,
    process_by_member fresh reached runs (fun _ _ => isFatal_narrowTokenizer) ?_⟩
  intro e stopped
  rw [run] at stopped
  cases stopped

end Cluster

end ContinuousBatching
