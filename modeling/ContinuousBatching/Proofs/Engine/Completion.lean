/-
**A step leaves everything settled.**

The requests that report after a step are its batch and everybody who was given up; those that
finished are ended one after the other (`Cluster.Reclaiming`). Afterwards every request that is left
has reported all its tokens and is not finished, so the cluster is at rest again:

* `Balanced`: what is counted of the requests that end is what the others still have to be counted
  for;
* `Grown.process_meets`: reporting and ending;
* `step_meets`: **a step** brings a cluster at rest to a cluster at rest and tells each request what
  its own stream says, or it is turned down and changes nothing.
-/

import ContinuousBatching.Proofs.Engine.Reporting

namespace ContinuousBatching

/-- The number of tokens that are counted when a request ends: all but the first one. -/
def Ticket.decodeLength (ticket : Ticket) : Nat := ticket.primary.committed.length - 1

namespace Cluster

variable {p : Premises} {c d e f : Cluster} {caches caches' : List PagedCache} {id : RequestId}
  {ticket next : Ticket} {list batch finished rest : List RequestId} {records : List StreamRecord}

/-! ### What is counted -/

/-- The input lengths counted so far, and those of the requests that are left. -/
def prefillDue (c : Cluster) : Nat :=
  c.scheduler.totals.prefillLength +
    (c.scheduler.tickets.values.map fun ticket => ticket.request.inputLength).sum

/-- The tokens counted so far, and those of the requests that are left. -/
def decodeDue (c : Cluster) : Nat :=
  c.scheduler.totals.decodeLength + (c.scheduler.tickets.values.map Ticket.decodeLength).sum

/-- What was counted or is left to be counted stays the same. -/
structure Balanced (c d : Cluster) : Prop where
  prefill : d.prefillDue = c.prefillDue
  decode : d.decodeDue = c.decodeDue

theorem Balanced.trans (first : c.Balanced d) (second : d.Balanced e) : c.Balanced e :=
  ⟨second.prefill.trans first.prefill, second.decode.trans first.decode⟩

/-- A request that ends is counted. -/
theorem balanced_ended (found : c.scheduler.tickets.get? id = some ticket)
    (sequence : SequenceId) (ids : SequenceIds) :
    c.Balanced (c.ended caches id ticket sequence ids) := by
  have split : ∀ f : Ticket → Nat, (c.scheduler.tickets.values.map f).sum =
      f ticket + ((c.scheduler.tickets.erase id).values.map f).sum :=
    Registry.sum_values_erase found
  constructor
  · rw [prefillDue, prefillDue, split, ← Nat.add_assoc]
    rfl
  · rw [decodeDue, decodeDue, split, ← Nat.add_assoc]
    rfl

/-! ### Ending -/

/-- Some of the finished requests are still to be ended. -/
structure Reclaiming (p : Premises) (c e : Cluster) (finished rest : List RequestId) (f : Cluster)
    (caches : List PagedCache) : Prop where
  live : f.Live p caches
  nodup : rest.Nodup
  part : rest ⊆ finished
  tickets : ∀ id, f.scheduler.tickets.get? id =
    if id ∈ finished ∧ id ∉ rest then none else e.scheduler.tickets.get? id
  running : ∀ id, id ∈ f.scheduler.running ↔
    id ∈ e.scheduler.running ∧ (id ∈ finished → id ∈ rest)
  delivered : f.delivered = e.delivered
  prefill : f.scheduler.totals.prefillLength + (rest.map c.extent).sum < c.demand
  decode : f.scheduler.totals.decodeLength + (rest.map c.extent).sum < c.demand
  balanced : e.Balanced f

theorem Reclaiming.start (live : e.Live p caches) (nodup : finished.Nodup)
    (known : finished ⊆ c.scheduler.tickets.keys)
    (prefill : e.scheduler.totals.prefillLength = c.scheduler.totals.prefillLength)
    (decode : e.scheduler.totals.decodeLength = c.scheduler.totals.decodeLength) :
    Reclaiming p c e finished finished e caches := by
  have below := sum_map_le_of_subset c.extent nodup known
  refine ⟨live, nodup, List.Subset.refl _, fun id => ?_, fun id => ?_, rfl, ?_, ?_, rfl, rfl⟩
  · rw [if_neg fun both => both.2 both.1]
  · rw [and_iff_left fun member => member]
  · rw [prefill]
    unfold demand
    omega
  · rw [decode]
    unfold demand
    omega

/-- **Ending the finished requests.** Their lengths were within the bound of all. -/
theorem reclaim_meets (start : Reclaiming p c e finished finished e caches)
    (runs : ∀ id ∈ finished, id ∈ e.scheduler.running)
    (within : ∀ id ∈ finished, ∀ ticket, e.scheduler.tickets.get? id = some ticket →
      ticket.request.inputLength + (ticket.primary.committed.length - 1) ≤ c.extent id) :
    Meets (reclaim finished) e
      (fun _ f => ∃ caches', Reclaiming p c e finished [] f caches')
      (fun stop _ => Overflows c.demand stop) := by
  unfold reclaim
  refine Meets.forM (fun rest f => ∃ caches', Reclaiming p c e finished rest f caches') ?_ finished
    e ⟨caches, start⟩
  rintro id rest f ⟨caches, reclaiming⟩
  obtain ⟨absent, nodup⟩ := List.nodup_cons.mp reclaiming.nodup
  have member := reclaiming.part List.mem_cons_self
  have live := reclaiming.live
  have still : id ∈ f.scheduler.running :=
    (reclaiming.running id).mpr ⟨runs id member, fun _ => List.mem_cons_self⟩
  obtain ⟨ticket, found⟩ := live.consistent.found_of_running still
  have before := reclaiming.tickets id
  rw [if_neg (fun both => both.2 List.mem_cons_self), found] at before
  have below := within id member ticket before.symm
  have prefill := reclaiming.prefill
  have decode := reclaiming.decode
  rw [List.map_cons, List.sum_cons] at prefill decode
  refine (reclaimOne_meets live.owned still found).mono ?_ ?_
  · rintro _ _ ⟨sequence, ids, attached, frees, rfl, owned, _⟩
    refine ⟨_, live.ended still found attached frees owned, nodup,
      fun other there => reclaiming.part (List.mem_cons_of_mem _ there), fun other => ?_,
      fun other => ?_, reclaiming.delivered, ?_, ?_,
      reclaiming.balanced.trans (balanced_ended found sequence ids)⟩
    · show (f.scheduler.tickets.erase id).get? other = _
      rw [Registry.get?_erase]
      by_cases same : other = id
      · subst same
        rw [if_pos rfl, if_pos ⟨member, absent⟩]
      · rw [if_neg same, reclaiming.tickets other]
        simp only [List.mem_cons, same, false_or]
    · show other ∈ f.scheduler.running.erase id ↔ _
      rw [live.consistent.nodup_running.mem_erase_iff, reclaiming.running]
      by_cases same : other = id
      · subst same
        simp [absent, member]
      · simp only [ne_eq, same, not_false_iff, true_and, List.mem_cons, false_or]
    · show f.scheduler.totals.prefillLength + ticket.request.inputLength + _ < _
      omega
    · show f.scheduler.totals.decodeLength + (ticket.primary.committed.length - 1) + _ < _
      omega
  · rintro _ _ ⟨rfl, large | large⟩
    · exact ⟨rfl, by omega⟩
    · exact ⟨rfl, by omega⟩

/-! ### Reporting -/

/-- The requests that report after a batch: those of the batch, and everybody who was given up. -/
def reporting (c : Cluster) (batch : List RequestId) : List RequestId :=
  batch ++ (c.scheduler.running.filter c.scheduler.givenUp).filter fun id => !batch.contains id

theorem reporters_eq (consistent : c.scheduler.Consistent) (batch : List RequestId) :
    c.reporters batch = .ok (c.reporting batch) := by
  have known := fun (id : RequestId) (runs : id ∈ c.scheduler.running) =>
    consistent.found_of_running runs
  unfold reporters
  rw [Scheduler.select_eq true known]
  simp only [beq_true]
  rfl

theorem Grown.nodup_reporting (grown : c.Grown p batch d caches) : (d.reporting batch).Nodup := by
  refine List.nodup_append.mpr ⟨grown.nodup,
    (grown.live.consistent.nodup_running.filter _).filter _, ?_⟩
  rintro first fed second others rfl
  have apart := (List.mem_filter.mp others).2
  rw [List.contains_iff_mem.mpr fed] at apart
  cases apart

/-- Whoever reports runs, and was fed or given up. -/
theorem Grown.reporters (grown : c.Grown p batch d caches) : ∀ id ∈ d.reporting batch,
    id ∈ d.scheduler.running ∧ (id ∈ batch ∨ d.scheduler.givenUp id = true) := by
  intro id member
  rcases List.mem_append.mp member with fed | given
  · exact ⟨grown.runs id fed, Or.inl fed⟩
  · obtain ⟨runs, given⟩ := List.mem_filter.mp (List.mem_of_mem_filter given)
    exact ⟨runs, Or.inr given⟩

/-- Whoever reports has something to report. -/
theorem Grown.expectant (rest : c.AtRest p caches) (grown : c.Grown p batch d caches') :
    ∀ id ∈ d.reporting batch, ∃ ticket, d.scheduler.tickets.get? id = some ticket ∧
      ticket.Expectant ∧ ticket.request.inputLength + ticket.reported + 1 ≤ c.demand := by
  intro id member
  obtain ⟨runs, due⟩ := grown.reporters id member
  obtain ⟨ticket, found⟩ := grown.live.consistent.found_of_running runs
  obtain ⟨before, there, same⟩ := grown.silent.found found
  refine ⟨ticket, found, ⟨?_, fun wanted => ?_⟩, ?_⟩
  · exact (congrArg Terms.finish same).symm.trans (rest.settled id before there).unfinished
  · have fed : id ∈ batch := by
      refine due.resolve_right fun given => ?_
      rw [Scheduler.givenUp_of_found found, wanted] at given
      cases given
    have level := grown.level id ticket found _ Ticket.primary_mem_lanes
    rwa [if_pos fed] at level
  · rw [← grown.silent.demand, ← extent_of_found found]
    exact extent_lt_demand found

/-- What the records of a step tell: every request that was known is told what its own stream says,
and nobody else is told anything. -/
structure Tells (p : Premises) (c : Cluster) (records : List StreamRecord) (f : Cluster) :
    Prop where
  known : ∀ id terms, c.terms? id = some terms → Told p terms (toldOf id records) (f.terms? id)
  unknown : ∀ id, c.terms? id = none → toldOf id records = [] ∧ f.terms? id = none

/-- The batch was fed, everybody reported, and the finished requests were ended. -/
structure Settling (p : Premises) (c : Cluster) (batch list : List RequestId)
    (records : List StreamRecord) (d e f : Cluster) (caches : List PagedCache) : Prop where
  rest : ∃ before, c.AtRest p before
  grown : ∃ fed, c.Grown p batch d fed
  answered : Answered p list d e records
  batched : batch ⊆ list
  reporters : ∀ id ∈ list, id ∈ d.scheduler.running ∧
    (id ∈ batch ∨ d.scheduler.givenUp id = true)
  live : f.Live p caches
  tickets : ∀ id, f.scheduler.tickets.get? id =
    if id ∈ finishedIn records then none else e.scheduler.tickets.get? id
  running : ∀ id, id ∈ f.scheduler.running ↔
    id ∈ d.scheduler.running ∧ id ∉ finishedIn records

namespace Settling

/-- A request that is left had no turn, or it reported a token and goes on. -/
theorem left (settling : Settling p c batch list records d e f caches)
    (found : f.scheduler.tickets.get? id = some ticket) :
    id ∉ finishedIn records ∧
      ((id ∉ list ∧ d.scheduler.tickets.get? id = some ticket) ∨
      (id ∈ batch ∧ ∃ before, d.scheduler.tickets.get? id = some before ∧ before.Reported ticket ∧
        before.abortRequested = false ∧
        p.judgement before.request (before.reported + 1) = .ok none ∧
        ticket.terms =
          { before.terms with reported := before.reported + 1, finish := none })) := by
  have tickets := settling.tickets id
  rw [found] at tickets
  split at tickets
  · cases tickets
  · rename_i unfinished
    refine ⟨unfinished, ?_⟩
    by_cases member : id ∈ list
    · obtain ⟨runs, due⟩ := settling.reporters id member
      obtain ⟨_, grown⟩ := settling.grown
      obtain ⟨before, was⟩ := grown.live.consistent.found_of_running runs
      obtain ⟨next, now, reported, grows, ended, told⟩ := settling.answered.own id member before was
      cases tickets.trans now
      have finish : ticket.finish = none := by
        by_contra some
        exact unfinished (ended.mpr some)
      rw [Terms.kept_of_unfinished finish] at told
      obtain ⟨wanted, judged, same⟩ := told.of_some (grows finish)
      have wanted : before.abortRequested = false := wanted
      refine Or.inr ⟨due.resolve_right fun given => ?_, before, was, reported, wanted, judged, same⟩
      rw [Scheduler.givenUp_of_found was, wanted] at given
      cases given
    · exact Or.inl ⟨member, (settling.answered.others id member).1.symm.trans tickets.symm⟩

/-- **The cluster is at rest again.** -/
theorem atRest (settling : Settling p c batch list records d e f caches) : f.AtRest p caches := by
  obtain ⟨_, rest⟩ := settling.rest
  obtain ⟨_, grown⟩ := settling.grown
  refine ⟨settling.live, fun id ticket found => ?_⟩
  obtain ⟨unfinished, idle | turn⟩ := settling.left found
  · obtain ⟨absent, was⟩ := idle
    have unfed : id ∉ batch := fun member => absent (settling.batched member)
    obtain ⟨before, there, same⟩ := grown.silent.found was
    have settled := rest.settled id before there
    have request : before.request = ticket.request := congrArg Terms.request same
    have reported : before.reported = ticket.reported := congrArg Terms.reported same
    refine ⟨fun lane member => ?_, ?_, fun idle => ?_, fun runs => ?_, fun n le => ?_⟩
    · have level := grown.level id ticket was lane member
      rwa [if_neg unfed] at level
    · exact (congrArg Terms.finish same).symm.trans settled.unfinished
    · have known : id ∈ c.scheduler.tickets.keys := Registry.mem_keys_iff.mpr ⟨before, there⟩
      rw [← Scheduler.givenUp_of_found was, grown.silent.givenUp]
      exact grown.wanted id known fun runs => idle ((settling.running id).mpr ⟨runs, unfinished⟩)
    · exact grown.drained id ticket was ((settling.running id).mp runs).1
    · rw [← request]
      exact settled.judged n (reported ▸ le)
  · obtain ⟨fed, before, was, kept, wanted, judged, same⟩ := turn
    obtain ⟨old, there, equal⟩ := grown.silent.found was
    have settled := rest.settled id old there
    have lanes : ticket.lanes = before.lanes := by
      rw [Ticket.lanes, Ticket.lanes, kept.primary, kept.others]
    have reported : ticket.reported = before.reported + 1 := congrArg Terms.reported same
    refine ⟨fun lane member => ?_, congrArg Terms.finish same, fun _ => ?_, fun runs => ?_,
      fun n le => ?_⟩
    · have level := grown.level id before was lane (lanes ▸ member)
      rw [if_pos fed] at level
      rw [level, reported]
    · exact (congrArg Terms.abortRequested same).trans wanted
    · rw [lanes]
      exact grown.drained id before was ((settling.running id).mp runs).1
    · rw [kept.request]
      rcases Nat.lt_or_eq_of_le (reported ▸ le) with less | rfl
      · have request : old.request = before.request := congrArg Terms.request equal
        have reported : old.reported = before.reported := congrArg Terms.reported equal
        rw [← request]
        exact settled.judged n (reported ▸ Nat.le_of_lt_succ less)
      · exact judged

/-- What is known about a request that reported is what its report left. -/
theorem kept (settling : Settling p c batch list records d e f caches) (member : id ∈ list)
    (was : d.scheduler.tickets.get? id = some ticket) :
    ∃ next : Ticket, (next.finish = none → next.reported = ticket.reported + 1) ∧
      Told p ticket.terms (toldOf id records) next.terms.kept ∧ f.terms? id = next.terms.kept := by
  obtain ⟨next, now, _, grows, ended, told⟩ := settling.answered.own id member ticket was
  refine ⟨next, grows, told, ?_⟩
  rw [terms?, settling.tickets]
  by_cases done : id ∈ finishedIn records
  · obtain ⟨reason, finish⟩ := Option.ne_none_iff_exists'.mp (ended.mp done)
    rw [if_pos done, Terms.kept_of_finished finish]
    rfl
  · have finish : next.finish = none := by
      by_contra some
      exact done (ended.mpr some)
    rw [if_neg done, now, Terms.kept_of_unfinished finish]
    rfl

/-- Whoever reported has moved on. -/
theorem moved (settling : Settling p c batch list records d e f caches) (member : id ∈ list)
    (was : d.scheduler.tickets.get? id = some ticket) : f.terms? id ≠ some ticket.terms := by
  obtain ⟨next, grows, _, now⟩ := settling.kept member was
  intro same
  rw [now] at same
  cases finish : next.finish with
  | none =>
      rw [Terms.kept_of_unfinished finish, Option.some_inj] at same
      have level : next.reported = ticket.reported := congrArg Terms.reported same
      have more := grows finish
      omega
  | some reason =>
      rw [Terms.kept_of_finished finish] at same
      cases same

/-- Whoever did not report was told nothing and has not changed. -/
theorem unlisted (settling : Settling p c batch list records d e f caches) (absent : id ∉ list) :
    toldOf id records = [] ∧ f.terms? id = d.terms? id := by
  obtain ⟨same, silent⟩ := settling.answered.others id absent
  refine ⟨silent, ?_⟩
  have unfinished : id ∉ finishedIn records := fun member =>
    absent (settling.answered.finished.subset member)
  rw [terms?, terms?, settling.tickets, if_neg unfinished, same]

/-- **Every request is told what its own stream says.** -/
theorem tells (settling : Settling p c batch list records d e f caches) :
    Tells p c records f := by
  obtain ⟨_, grown⟩ := settling.grown
  refine ⟨fun id terms known => ?_, fun id unknown => ?_⟩
  · have known : d.terms? id = some terms := (grown.silent.terms id).trans known
    by_cases member : id ∈ list
    · obtain ⟨ticket, was, rfl⟩ := Option.map_eq_some_iff.mp known
      obtain ⟨next, _, told, kept⟩ := settling.kept member was
      rw [kept]
      exact told
    · obtain ⟨silent, same⟩ := settling.unlisted member
      rw [silent, same, known]
      exact .nothing
  · have unknown : d.terms? id = none := (grown.silent.terms id).trans unknown
    have absent : id ∉ list := fun member => by
      obtain ⟨runs, _⟩ := settling.reporters id member
      obtain ⟨ticket, was⟩ := grown.live.consistent.found_of_running runs
      rw [terms?_of_found was] at unknown
      cases unknown
    obtain ⟨silent, same⟩ := settling.unlisted absent
    exact ⟨silent, same.trans unknown⟩

end Settling

/-- Somebody reports: the batch, or whoever was given up. -/
theorem Grown.reporting_ne_nil (grown : c.Grown p batch d caches) : d.reporting batch ≠ [] := by
  intro none
  obtain ⟨unfed, unheard⟩ := List.append_eq_nil_iff.mp none
  obtain ⟨id, runs, given⟩ := grown.busy unfed
  rw [← grown.silent.givenUp] at given
  refine List.filter_eq_nil_iff.mp unheard id (List.mem_filter.mpr ⟨runs, given⟩) ?_
  rw [unfed]
  rfl

/-- What is counted later is as it was before the reports. -/
theorem Answered.balanced (answered : Answered p list d e records)
    (known : ∀ id ∈ list, ∃ ticket, d.scheduler.tickets.get? id = some ticket) :
    d.Balanced e := by
  have same : ∀ {f : Ticket → Nat}, (∀ ticket next, ticket.Reported next → f next = f ticket) →
      (e.scheduler.tickets.values.map f).sum = (d.scheduler.tickets.values.map f).sum := by
    intro f same
    refine Registry.sum_values_congr fun id => ?_
    by_cases member : id ∈ list
    · obtain ⟨ticket, was⟩ := known id member
      obtain ⟨next, now, reported, _⟩ := answered.own id member ticket was
      rw [was, now, Option.map_some, Option.map_some, same ticket next reported]
    · rw [(answered.others id member).1]
  constructor
  · rw [prefillDue, prefillDue, answered.totals, same fun _ _ reported => by rw [reported.request]]
  · rw [decodeDue, decodeDue, answered.totals, same fun _ _ reported => by
      rw [Ticket.decodeLength, Ticket.decodeLength, reported.primary]]

/-- **What a step did.** It fed a batch, told everybody who reports what its own stream says, and
ended whoever finished. Somebody has moved on, and what is counted of a request when it ends is what
the batch made of it. -/
structure Stepped (p : Premises) (c : Cluster) (batch : List RequestId) (d : Cluster)
    (records : List StreamRecord) (f : Cluster) : Prop where
  grown : ∃ caches, c.Grown p batch d caches
  rest : ∃ caches, f.AtRest p caches
  delivered : f.delivered = c.delivered ++ [records]
  tells : Tells p c records f
  /-- Whoever was neither fed nor given up had no turn. -/
  unfed : ∀ id, id ∉ batch → d.scheduler.givenUp id = false → f.terms? id = c.terms? id
  moved : ∃ id terms, c.terms? id = some terms ∧ f.terms? id ≠ some terms
  lanes : ∀ id next, f.scheduler.tickets.get? id = some next →
    ∃ ticket, d.scheduler.tickets.get? id = some ticket ∧ ticket.Reported next
  balanced : d.Balanced f

namespace Stepped

/-- Whoever is known after a step was known before. -/
theorem earlier (stepped : Stepped p c batch d records f) {terms : Terms}
    (now : f.terms? id = some terms) :
    ∃ before, c.terms? id = some before ∧ Told p before (toldOf id records) (some terms) := by
  cases known : c.terms? id with
  | none =>
      rw [(stepped.tells.unknown id known).2] at now
      cases now
  | some before => exact ⟨before, rfl, now ▸ stepped.tells.known id before known⟩

theorem keys_subset (stepped : Stepped p c batch d records f) :
    f.scheduler.tickets.keys ⊆ c.scheduler.tickets.keys := by
  intro id member
  obtain ⟨next, now⟩ := Registry.mem_keys_iff.mp member
  obtain ⟨before, was, _⟩ := stepped.earlier (terms?_of_found now)
  obtain ⟨ticket, found, _⟩ := Option.map_eq_some_iff.mp was
  exact Registry.mem_keys_iff.mpr ⟨ticket, found⟩

/-- A step counts the input of whoever ended. -/
theorem prefillDue (stepped : Stepped p c batch d records f) : f.prefillDue = c.prefillDue := by
  obtain ⟨_, grown⟩ := stepped.grown
  rw [stepped.balanced.prefill, Cluster.prefillDue, Cluster.prefillDue, grown.silent.prefillLength]
  refine congrArg _ (Registry.sum_values_congr fun id => ?_)
  have same := congrArg (Option.map fun terms => terms.request.inputLength) (grown.silent.terms id)
  rwa [terms?, terms?, Option.map_map, Option.map_map] at same

end Stepped

/-- What a finished request adds to the totals is within what it is fed from the start. -/
theorem Answered.le_extent (grown : c.Grown p batch d caches)
    (answered : Answered p (d.reporting batch) d e records) (member : id ∈ finishedIn records)
    (now : e.scheduler.tickets.get? id = some next) :
    next.request.inputLength + (next.primary.committed.length - 1) ≤ c.extent id := by
  have reports := answered.finished.subset member
  obtain ⟨ticket, was⟩ := grown.live.consistent.found_of_running (grown.reporters id reports).1
  obtain ⟨next, there, reported, _⟩ := answered.own id reports ticket was
  cases now.symm.trans there
  have level := grown.level id ticket was _ Ticket.primary_mem_lanes
  rw [reported.request, reported.primary, ← grown.silent.extent, extent_of_found was, level]
  split <;> omega

/-- **Reporting and ending** after the batch was fed. -/
theorem Grown.process_meets (rest : c.AtRest p caches) (grown : c.Grown p batch d caches') :
    Meets (process (d.reporting batch) p.tokenizer p.settings.maxLength) d
      (fun _ f => ∃ records, Stepped p c batch d records f)
      (fun stop _ => Overflows c.demand stop) := by
  have expectant := grown.expectant rest
  rw [meets_process]
  refine (report_meets _ d grown.live grown.nodup_reporting expectant).mono ?_
    (fun _ _ large => large)
  rintro records e ⟨live, answered⟩
  have reports := answered.finished.subset
  have known : finishedIn records ⊆ c.scheduler.tickets.keys := fun id member => by
    obtain ⟨ticket, found, _⟩ := expectant id (reports member)
    rw [← grown.silent.keys]
    exact Registry.mem_keys_iff.mpr ⟨ticket, found⟩
  have runs : ∀ id ∈ finishedIn records, id ∈ e.scheduler.running := fun id member => by
    rw [answered.running]
    exact (grown.reporters id (reports member)).1
  have start : Reclaiming p c { e with delivered := e.delivered ++ [records] }
      (finishedIn records) (finishedIn records) { e with delivered := e.delivered ++ [records] }
      caches' := by
    refine .start (live.congr rfl rfl) (grown.nodup_reporting.sublist answered.finished) known ?_ ?_
    · exact (congrArg Totals.prefillLength answered.totals).trans grown.silent.prefillLength
    · exact (congrArg Totals.decodeLength answered.totals).trans grown.silent.decodeLength
  refine (reclaim_meets start runs fun id member next now =>
    answered.le_extent grown member now).mono ?_ (fun _ _ large => large)
  rintro _ f ⟨caches, ended⟩
  have settling : Settling p c batch (d.reporting batch) records d e f caches := by
    refine ⟨⟨_, rest⟩, ⟨_, grown⟩, answered, List.subset_append_left _ _, grown.reporters,
      ended.live, fun id => ?_, fun id => ?_⟩
    · rw [ended.tickets id]
      simp only [List.not_mem_nil, not_false_iff, and_true]
    · rw [ended.running id, answered.running]
      simp only [List.not_mem_nil, imp_false]
  refine ⟨records, ⟨_, grown⟩, ⟨caches, settling.atRest⟩, ?_, settling.tells,
    fun id unfed wanted => ?_, ?_, fun id next now => ?_, ?_⟩
  · rw [ended.delivered, answered.delivered, grown.silent.delivered]
  · have absent : id ∉ d.reporting batch := fun member => by
      rcases (grown.reporters id member).2 with fed | given
      · exact unfed fed
      · rw [wanted] at given
        cases given
    exact (settling.unlisted absent).2.trans (grown.silent.terms id)
  · obtain ⟨id, member⟩ := List.exists_mem_of_ne_nil _ grown.reporting_ne_nil
    obtain ⟨ticket, was, _⟩ := expectant id member
    exact ⟨id, ticket.terms, (grown.silent.terms id).symm.trans (terms?_of_found was),
      settling.moved member was⟩
  · rcases (settling.left now).2 with ⟨_, was⟩ | ⟨_, ticket, was, reported, _⟩
    · exact ⟨next, was, rfl, rfl, rfl⟩
    · exact ⟨ticket, was, reported⟩
  · have noted : e.Balanced { e with delivered := e.delivered ++ [records] } := ⟨rfl, rfl⟩
    refine ((answered.balanced fun id member => ?_).trans noted).trans ended.balanced
    obtain ⟨ticket, was, _⟩ := expectant id member
    exact ⟨ticket, was⟩

/-! ### The whole step -/

/-- **A step.** The cluster is at rest again, and every request was told what its own stream says;
or the step was turned down because of a jam, and nothing has changed. -/
theorem step_meets (rest : c.AtRest p caches) :
    Meets (step p.tokenizer p.settings) c
      (fun _ f => (c.scheduler.hasPending = false ∧ f = c) ∨
        (c.scheduler.hasPending = true ∧ ¬ c.Jammed p.settings.maxRunning caches ∧
          ∃ batch records, Stepped p c batch (c.fed p.settings.maxRunning) records f))
      (fun stop f => c.scheduler.hasPending = true ∧ (Overflows c.demand stop ∨
        (stop = .refused .outOfBlocks ∧ f = c ∧
          c.Jammed p.settings.maxRunning caches ∧ c.Jams p.settings.maxRunning))) := by
  refine step_rule (fun idle => Or.inl ⟨idle, rfl⟩) fun pending => ?_
  refine (turn_meets rest).with_run.mono ?_ (fun _ _ stopped => ⟨pending, stopped⟩)
  rintro report d ⟨⟨free, caches', grown⟩, run⟩
  rw [reporters_eq grown.live.consistent, yields_ok, fed_of_turn run]
  refine (grown.process_meets rest).mono ?_ (fun _ _ large => ⟨pending, Or.inl large⟩)
  rintro finished f ⟨records, stepped⟩
  refine (recordAll_meets finished .finished f).mono ?_ (fun _ _ => False.elim)
  rintro _ _ ⟨trace, rfl⟩
  obtain ⟨caches, settled⟩ := stepped.rest
  have settled : AtRest p { f with trace := trace } caches :=
    ⟨settled.live.congr rfl rfl, settled.settled⟩
  exact Or.inr ⟨pending, free, report.scheduled, records, stepped.grown, ⟨caches, settled⟩,
    stepped.delivered, ⟨stepped.tells.known, stepped.tells.unknown⟩, stepped.unfed,
    stepped.moved, stepped.lanes, ⟨stepped.balanced.prefill, stepped.balanced.decode⟩⟩

end Cluster

end ContinuousBatching
