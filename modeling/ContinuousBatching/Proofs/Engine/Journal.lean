/-
**What a step writes down.**

A step moves requests between the queues and writes down whom it moved, whatever its replicas do: it
admits requests from the front of the waiting queue and feeds them, or it preempts running requests
and sends them back, and in the end it lets go of those that finished. The queues afterwards and the
entries are both determined by these three lists (`Cluster.Moved`). A step that is refused is not
followed here.

* `onScheduler_mute`, `onReplicas_mute`: only `record` writes;
* `startWhile_moves`, `makeRoom_moves`, `reclaim_moves`: who moves in each phase;
* `Moved.trans`: phases of which the later one admits nobody;
* `step_moves`: the whole step, with its report.
-/

import ContinuousBatching.Proofs.Engine.Precedence

namespace ContinuousBatching

/-! ### Entries -/

namespace Trace

variable {id : RequestId} {ids : List RequestId}

/-- The same event of several requests. -/
def ofEvent (event : Event) (ids : List RequestId) : Trace := ids.map fun id => ⟨id, event⟩

theorem eventsOf_append (first second : Trace) (id : RequestId) :
    (first ++ second).eventsOf id = first.eventsOf id ++ second.eventsOf id := by
  rw [eventsOf, List.filter_append, List.map_append]
  rfl

theorem eventsOf_ofEvent (event : Event) (nodup : ids.Nodup) (id : RequestId) :
    (ofEvent event ids).eventsOf id = if id ∈ ids then [event] else [] := by
  induction ids with
  | nil => rfl
  | cons other rest ih =>
      obtain ⟨fresh, nodup⟩ := List.nodup_cons.mp nodup
      have later := ih nodup
      rw [ofEvent, List.map_cons, ← ofEvent, ← List.singleton_append, eventsOf_append, later]
      by_cases same : other = id
      · subst same
        rw [if_neg fresh, if_pos List.mem_cons_self, eventsOf, List.filter_singleton,
          decide_eq_true rfl]
        rfl
      · have differ : id ≠ other := fun equal => same equal.symm
        rw [eventsOf, List.filter_singleton, decide_eq_false same]
        simp [differ]

theorem eventsOf_singleton (other : RequestId) (event : Event) (id : RequestId) :
    eventsOf [⟨other, event⟩] id = if id = other then [event] else [] := by
  show (ofEvent event [other]).eventsOf id = _
  rw [eventsOf_ofEvent event (List.nodup_singleton other)]
  simp only [List.mem_singleton]

end Trace

namespace StepReport

/-- The requests that a step admitted. -/
def admitted (report : StepReport) : List RequestId :=
  if report.kind = .prefill then report.scheduled else []

/-- What a step writes down. -/
def entries (report : StepReport) : Trace :=
  .ofEvent .admitted report.admitted ++ .ofEvent .prefilled report.admitted ++
    .ofEvent .preempted report.preempted ++ .ofEvent .finished report.finished

end StepReport

namespace Cluster

variable {c d e : Cluster} {α : Type}

/-! ### Nothing is written -/

/-- Nothing was written down. -/
def Mute (c d : Cluster) : Prop := d.trace = c.trace

theorem Mute.refl (c : Cluster) : c.Mute c := Eq.refl c.trace

theorem Mute.trans (first : c.Mute d) (second : d.Mute e) : c.Mute e := Eq.trans second first

theorem onScheduler_mute (action : Action Scheduler α) (c : Cluster) :
    Leads Mute (onScheduler action) c := by
  rw [Leads, meets_onScheduler]
  exact (Meets.anyhow _ _).mono (fun _ _ _ => rfl) fun _ _ _ => rfl

theorem onReplicas_mute (action : Action (List Replica) α) (c : Cluster) :
    Leads Mute (onReplicas action) c := by
  rw [Leads, meets_onReplicas]
  exact (Meets.anyhow _ _).mono (fun _ _ _ => rfl) fun _ _ _ => rfl

theorem find_mute (id : RequestId) (c : Cluster) : Leads Mute (find id) c := onScheduler_mute _ c

theorem put_mute (id : RequestId) (ticket : Ticket) (c : Cluster) : Leads Mute (put id ticket) c :=
  onScheduler_mute _ c

theorem feed_mute (id : RequestId) (place : Nat) (sequence : SequenceId) (chunks : List Chunk)
    (c : Cluster) : Leads Mute (feed id place sequence chunks) c :=
  (onReplicas_mute _ c).bind Mute.trans fun _ d _ =>
    (onScheduler_mute _ d).bind Mute.trans fun _ e _ => .refl e

theorem feedPending_mute (id : RequestId) (place : Nat) (c : Cluster) :
    Leads Mute (feedPending id place) c := by
  refine (find_mute id c).bind Mute.trans fun ticket d _ => ?_
  refine Leads.liftM_bind (.refl d) fun lane _ => ?_
  cases lane.sequence with
  | none => exact .refl d
  | some sequence =>
      exact (put_mute id _ d).bind Mute.trans fun _ e _ => feed_mute id place sequence _ e

theorem feedLast_mute (id : RequestId) (place : Nat) (c : Cluster) :
    Leads Mute (feedLast id place) c := by
  refine (find_mute id c).bind Mute.trans fun ticket d _ => ?_
  refine Leads.liftM_bind (.refl d) fun lane _ => ?_
  split
  · exact .refl d
  · exact .refl d
  · exact feed_mute ..

theorem onEachPlace_mute {action : Nat → Action Cluster Sample}
    (mute : ∀ place d, Leads Mute (action place) d) (c : Cluster) :
    Leads Mute (onEachPlace action) c := by
  unfold onEachPlace
  rw [Leads, meets_bind, meets_get]
  refine Leads.forM Mute.trans (.refl c) (fun place d _ => ?_) _
  rw [Leads, meets_discard]
  exact mute place d

theorem decodeOne_mute (id : RequestId) (c : Cluster) : Leads Mute (decodeOne id) c :=
  onEachPlace_mute (feedLast_mute id) c

theorem dropStale_mute (id : RequestId) (ticket : Ticket) (c : Cluster) :
    Leads Mute (dropStale id ticket) c := by
  unfold dropStale
  split
  · exact .refl c
  · exact (put_mute id _ c).bind Mute.trans fun _ d _ => onScheduler_mute _ d

theorem start_mute (id : RequestId) (c : Cluster) : Leads Mute (start id) c := by
  unfold start
  refine (find_mute id c).bind Mute.trans fun ticket d _ => ?_
  refine (dropStale_mute id ticket d).bind Mute.trans fun _ d _ => ?_
  refine (onScheduler_mute _ d).bind Mute.trans fun fresh d _ => ?_
  refine (onReplicas_mute _ d).bind Mute.trans fun _ d _ => ?_
  refine (find_mute id d).bind Mute.trans fun ticket d _ => ?_
  refine (put_mute id _ d).bind Mute.trans fun _ d _ => ?_
  exact Leads.liftM_bind (.refl d) fun _ _ => onScheduler_mute _ d

theorem reclaimOne_mute (id : RequestId) (c : Cluster) : Leads Mute (reclaimOne id) c := by
  unfold reclaimOne
  rw [Leads, meets_bind, meets_get]
  split
  · refine (find_mute id c).bind Mute.trans fun ticket d _ => ?_
    cases ticket.primary.sequence with
    | none => exact .refl d
    | some sequence =>
        refine (onScheduler_mute _ d).bind Mute.trans fun _ d _ => ?_
        refine (onReplicas_mute _ d).bind Mute.trans fun _ d _ => ?_
        refine (onScheduler_mute _ d).bind Mute.trans fun _ d _ => ?_
        exact (onScheduler_mute _ d).bind Mute.trans fun _ d _ => onScheduler_mute _ d
  · exact .refl c

/-! ### Something is written -/

/-- The trace, if there is one, has become longer by these entries. -/
def Notes (c : Cluster) (entries : Trace) (d : Cluster) : Prop :=
  d.trace = c.trace.map (· ++ entries)

theorem Mute.notes (mute : c.Mute d) : c.Notes [] d := by
  rw [Notes, mute]
  simp

theorem Notes.trans {first second : Trace} (earlier : c.Notes first d) (later : d.Notes second e) :
    c.Notes (first ++ second) e := by
  rw [Notes, later, earlier, Option.map_map]
  congr 1
  funext entries
  exact List.append_assoc ..

theorem Mute.notes_trans {entries : Trace} (earlier : c.Mute d) (later : d.Notes entries e) :
    c.Notes entries e := by
  rwa [Notes, ← earlier]

theorem Notes.mute_trans {entries : Trace} (earlier : c.Notes entries d) (later : d.Mute e) :
    c.Notes entries e :=
  Eq.trans later earlier

theorem record_notes (id : RequestId) (event : Event) (c : Cluster) :
    Meets (record id event) c (fun _ d => c.Notes [⟨id, event⟩] d) fun _ _ => False :=
  rfl

/-- A loop over requests in which each turn writes the same event down. -/
theorem forM_notes {action : RequestId → Action Cluster PUnit} {event : Event}
    (each : ∀ id c, Meets (action id) c (fun _ d => c.Notes [⟨id, event⟩] d) fun _ _ => True) :
    ∀ (ids : List RequestId) (c : Cluster),
      Meets (ids.forM action) c (fun _ d => c.Notes (.ofEvent event ids) d) fun _ _ => True
  | [], c => (Mute.refl c).notes
  | id :: rest, c => by
      show Meets (action id >>= fun _ => rest.forM action) c _ _
      rw [meets_bind]
      refine (each id c).mono (fun _ d first => ?_) (fun _ _ _ => trivial)
      exact (forM_notes each rest d).mono (fun _ _ later => first.trans later) fun _ _ _ => trivial

theorem recordAll_notes (event : Event) (ids : List RequestId) (c : Cluster) :
    Meets (ids.forM fun id => record id event) c (fun _ d => c.Notes (.ofEvent event ids) d)
      fun _ _ => True :=
  forM_notes (fun id c => (record_notes id event c).mono (fun _ _ notes => notes)
    fun _ _ _ => trivial) ids c

theorem prefillOne_notes (id : RequestId) (c : Cluster) :
    Meets (prefillOne id) c (fun _ d => c.Notes [⟨id, .prefilled⟩] d) fun _ _ => True := by
  unfold prefillOne
  rw [meets_bind]
  refine Meets.mono (onEachPlace_mute (feedPending_mute id) c) (fun _ d fed => ?_)
    fun _ _ _ => trivial
  rw [meets_bind]
  refine Meets.mono (onScheduler_mute _ d) (fun _ e marked => ?_) fun _ _ _ => trivial
  exact (record_notes id .prefilled e).mono (fun _ _ notes => (fed.trans marked).notes_trans notes)
    fun _ _ _ => trivial

theorem preempt_notes (id : RequestId) (c : Cluster) :
    Meets (preempt id) c (fun _ d => c.Notes [⟨id, .preempted⟩] d) fun _ _ => True := by
  unfold preempt
  rw [meets_bind]
  refine Meets.mono (find_mute id c) (fun ticket d found => ?_) fun _ _ _ => trivial
  rw [meets_bind, meets_liftM]
  cases checkFed id ticket.lanes with
  | error => trivial
  | ok =>
      rw [yields_ok]
      cases ticket.primary.sequence with
      | none => trivial
      | some sequence =>
          dsimp only
          rw [meets_bind]
          refine (record_notes id .preempted d).mono (fun _ d notes => ?_) fun _ _ => False.elim
          have later : Leads Mute (do
              onScheduler (Scheduler.onTotals (Totals.release (← ticket.occupiedLength)))
              put id ticket.rewound
              onReplicas (onEvery (Replica.removeSequence sequence))
              modifyScheduler (requeue id)) d := by
            refine Leads.liftM_bind (.refl d) fun _ _ => ?_
            refine (onScheduler_mute _ d).bind Mute.trans fun _ d _ => ?_
            refine (put_mute id _ d).bind Mute.trans fun _ d _ => ?_
            exact (onReplicas_mute _ d).bind Mute.trans fun _ d _ => onScheduler_mute _ d
          exact Meets.mono later (fun _ _ mute => (found.notes_trans notes).mute_trans mute)
            fun _ _ _ => trivial

/-! ### Who moves -/

/-- These requests were admitted, preempted, or let go of, and these entries were written down. -/
structure Moved (c : Cluster) (admitted preempted finished : List RequestId) (entries : Trace)
    (d : Cluster) : Prop where
  orderly : c.scheduler.Orderly d.scheduler
  running : (c.scheduler.running ++ admitted).Perm (preempted ++ finished ++ d.scheduler.running)
  waiting : ∃ rest, c.scheduler.waiting = admitted ++ rest ∧
    d.scheduler.waiting = preempted.reverse ++ rest
  spared : preempted ⊆ c.scheduler.line
  notes : c.Notes entries d

namespace Moved

variable {admitted preempted preempted' finished finished' : List RequestId}
  {entries entries' : Trace}

/-- Nobody has moved. -/
theorem of_steady (tidy : c.scheduler.Tidy) (steady : c.Steady d) (notes : c.Notes entries d) :
    c.Moved [] [] [] entries d where
  orderly := (steady.quiet tidy).scheduler.toOrderly
  running := by rw [steady.scheduler.running, List.append_nil]; rfl
  waiting := ⟨c.scheduler.waiting, rfl, steady.scheduler.waiting⟩
  spared := List.nil_subset _
  notes := notes

theorem refl (tidy : c.scheduler.Tidy) : c.Moved [] [] [] [] c :=
  .of_steady tidy (.refl c) (Mute.refl c).notes

/-- One phase after another, if the later one admits nobody. -/
theorem trans (first : c.Moved admitted preempted finished entries d)
    (second : d.Moved [] preempted' finished' entries' e) :
    c.Moved admitted (preempted ++ preempted') (finished ++ finished') (entries ++ entries') e where
  orderly := first.orderly.trans second.orderly
  running := List.perm_iff_count.mpr fun id => by
    have earlier := first.running.count_eq id
    have later := second.running.count_eq id
    simp only [List.count_append, List.count_nil] at earlier later ⊢
    omega
  waiting := by
    obtain ⟨rest, before, middle⟩ := first.waiting
    obtain ⟨rest', middle', after⟩ := second.waiting
    refine ⟨rest, before, ?_⟩
    rw [after, ← List.nil_append rest', ← middle', middle, List.reverse_append, List.append_assoc]
  spared := List.append_subset.mpr
    ⟨first.spared, fun _ member => first.orderly.line.subset (second.spared member)⟩
  notes := first.notes.trans second.notes

end Moved

/-- **Admission.** The requests at the front start, in order. -/
theorem startWhile_moves {π : Type} {slots : Nat} {test : AdmissionTest π} :
    ∀ (list : List RequestId) (notes : π) (c : Cluster), c.scheduler.Tidy →
      c.scheduler.waiting = list → Meets (startWhile slots test notes list) c
        (fun admitted d => c.Forward d ∧ c.Mute d ∧
          d.scheduler.running = c.scheduler.running ++ admitted ∧
          c.scheduler.waiting = admitted ++ d.scheduler.waiting)
        (fun _ _ => True)
  | [], _, c, tidy, _ => ⟨.refl tidy, .refl c, (List.append_nil _).symm, rfl⟩
  | id :: rest, notes, c, tidy, front => by
      have nobody : c.Forward c ∧ c.Mute c ∧
          c.scheduler.running = c.scheduler.running ++ [] ∧
          c.scheduler.waiting = [] ++ c.scheduler.waiting :=
        ⟨.refl tidy, .refl c, (List.append_nil _).symm, rfl⟩
      refine startWhile_rule (fun _ => nobody) (fun _ => trivial) (fun _ _ _ _ => trivial)
        fun ticket later _ _ _ => ?_
      refine ((start_forward tidy front).and (start_mute id c)).mono ?_ (fun _ _ _ => trivial)
      rintro _ d ⟨⟨forward, waits, runs⟩, mute⟩
      refine (startWhile_moves rest later d forward.tidy waits).mono ?_ (fun _ _ _ => trivial)
      rintro others e ⟨forward', mute', runs', waits'⟩
      refine ⟨forward.trans forward', mute.trans mute', ?_, ?_⟩
      · rw [runs', runs, List.append_assoc]
        rfl
      · rw [front, List.cons_append, ← waits', waits]

theorem admitFitting_moves (tidy : c.scheduler.Tidy) (slots : Nat) :
    Meets (admitFitting slots) c
      (fun admitted d => c.Moved admitted [] [] (.ofEvent .admitted admitted) d)
      (fun _ _ => True) := by
  unfold admitFitting
  rw [meets_bind]
  refine (startWhile_moves c.scheduler.waiting [] c tidy rfl).mono ?_ (fun _ _ _ => trivial)
  rintro admitted d ⟨forward, mute, runs, waits⟩
  rw [meets_bind]
  refine ((recordAll_notes .admitted admitted d).and (recordAll_steady admitted .admitted d)).mono
    ?_ (fun _ _ _ => trivial)
  rintro _ e ⟨notes, steady⟩
  refine ⟨(forward.trans (steady.forward forward.tidy)).scheduler.toOrderly, ?_,
    ⟨e.scheduler.waiting, ?_, rfl⟩, List.nil_subset _, mute.notes_trans notes⟩
  · rw [steady.scheduler.running, runs]
    rfl
  · rw [steady.scheduler.waiting, waits]

/-- **A preemption.** -/
theorem preemptLast_moves (tidy : c.scheduler.Tidy) :
    Meets preemptLast c (fun id d => c.Moved [] [id] [] [⟨id, .preempted⟩] d)
      (fun _ _ => True) := by
  have written : Meets preemptLast c (fun id d => c.Notes [⟨id, .preempted⟩] d)
      (fun _ _ => True) :=
    preemptLast_rule (fun _ => trivial) fun id _ => preempt_notes id c
  refine ((preemptLast_quiet tidy).and written).mono ?_ (fun _ _ _ => trivial)
  rintro id d ⟨⟨chosen, quiet, waits, runs⟩, notes⟩
  have member := Scheduler.victim?_mem_line chosen
  have running := Scheduler.victim?_mem_running chosen
  refine ⟨quiet.scheduler.toOrderly, ?_, ⟨c.scheduler.waiting, rfl, waits⟩, ?_, notes⟩
  · rw [runs, List.append_nil]
    exact List.perm_cons_erase running
  · exact List.cons_subset.mpr ⟨member, List.nil_subset _⟩

/-- **Making room.** -/
theorem makeRoom_moves (victims : Nat) (c : Cluster) (tidy : c.scheduler.Tidy) :
    Meets (makeRoom victims) c
      (fun preempted d => c.Moved [] preempted [] (.ofEvent .preempted preempted) d)
      (fun _ _ => True) := by
  refine makeRoom_turn (fun _ _ => trivial) (fun _ _ _ _ => trivial) (fun _ _ _ _ => trivial)
    (fun _ _ _ => .refl tidy) fun batch more fewer _ _ _ => ?_
  refine (preemptLast_moves tidy).mono (fun victim d first => ?_) (fun _ _ _ => trivial)
  exact (makeRoom_moves more d first.orderly.tidy).mono (fun _ _ later => first.trans later)
    fun _ _ _ => trivial
termination_by victims
decreasing_by omega

/-- Feeding moves nobody. -/
theorem decodeAll_moves (tidy : c.scheduler.Tidy) (ids : List RequestId) :
    Meets (ids.forM decodeOne) c (fun _ d => c.Moved [] [] [] [] d) (fun _ _ => True) := by
  have steady := decodeAll_steady ids c
  have mute : Leads Mute (ids.forM decodeOne) c :=
    Leads.forM Mute.trans (.refl c) (fun id d _ => decodeOne_mute id d) ids
  exact (Meets.and steady mute).mono (fun _ _ both => .of_steady tidy both.1 both.2.notes)
    fun _ _ _ => trivial

theorem prefillAll_moves (tidy : c.scheduler.Tidy) (ids : List RequestId) :
    Meets (ids.forM prefillOne) c (fun _ d => c.Moved [] [] [] (.ofEvent .prefilled ids) d)
      (fun _ _ => True) := by
  have steady := prefillAll_steady ids c
  exact (Meets.and steady (forM_notes prefillOne_notes ids c)).mono
    (fun _ _ both => .of_steady tidy both.1 both.2) fun _ _ _ => trivial

/-- **Feeding the batch of a step**, with what it reports. -/
theorem feedBatch_moves (tidy : c.scheduler.Tidy) (admitted : List RequestId) :
    Meets (feedBatch admitted) c
      (fun report d => report.admitted = admitted ∧
        c.Moved [] report.preempted []
          (.ofEvent .prefilled admitted ++ .ofEvent .preempted report.preempted) d)
      (fun _ _ => True) := by
  refine feedBatch_rule (fun _ => ?_) (fun _ _ => trivial) fun none _ => ?_
  · refine (prefillAll_moves tidy admitted).mono (fun _ d moved => ⟨rfl, ?_⟩) (fun _ _ _ => trivial)
    show c.Moved [] [] [] (_ ++ []) d
    rwa [List.append_nil]
  · subst none
    refine (makeRoom_moves _ c tidy).mono (fun preempted d first => ?_) (fun _ _ _ => trivial)
    refine (Yields.anyhow _).mono (fun scheduled _ => ?_) (fun _ _ => trivial)
    refine (decodeAll_moves first.orderly.tidy scheduled).mono (fun _ e later => ⟨rfl, ?_⟩)
      (fun _ _ _ => trivial)
    have moved := first.trans later
    simp only [List.append_nil] at moved
    exact moved

/-- Reporting moves nobody. -/
theorem report_moves {tokenizer : Tokenizer} {maxLength : Nat} : ∀ (ids : List RequestId)
    (c : Cluster), c.scheduler.Tidy →
    Meets (report tokenizer maxLength ids) c (fun _ d => c.Moved [] [] [] [] d) (fun _ _ => True)
  | [], _, tidy => .refl tidy
  | id :: rest, c, tidy => by
      refine report_rule (fun _ => trivial) (fun _ _ _ _ => trivial)
        fun ticket delta next found reported => ?_
      have reports := (Ticket.reports_of_report ticket tokenizer maxLength).of_ok reported
      have first : c.Moved [] [] [] [] { c with scheduler :=
          { c.scheduler with tickets := c.scheduler.tickets.insert id next } } :=
        ⟨.put tidy found reports.given_mono reports.alike, by rw [List.append_nil]; rfl,
          ⟨_, rfl, rfl⟩, List.nil_subset _, (Mute.refl c).notes⟩
      exact (report_moves rest _ first.orderly.tidy).mono (fun _ _ moved => first.trans moved)
        (fun _ _ _ => trivial)

/-- **Letting requests go.** -/
theorem reclaim_moves : ∀ (ids : List RequestId) (c : Cluster), c.scheduler.Tidy →
    Meets (reclaim ids) c (fun _ d => c.Moved [] [] ids [] d) (fun _ _ => True)
  | [], _, tidy => .refl tidy
  | id :: rest, c, tidy => by
      show Meets (reclaimOne id >>= fun _ => reclaim rest) c _ _
      rw [meets_bind]
      refine ((reclaimOne_forward tidy id).and (reclaimOne_mute id c)).mono ?_
        (fun _ _ _ => trivial)
      rintro _ d ⟨⟨forward, runs, _, running, waiting, _⟩, mute⟩
      have first : c.Moved [] [] [id] [] d := by
        refine ⟨forward.scheduler.toOrderly, ?_, ⟨_, rfl, waiting⟩, List.nil_subset _, mute.notes⟩
        rw [running, List.append_nil]
        exact List.perm_cons_erase runs
      exact (reclaim_moves rest d forward.tidy).mono (fun _ _ later => first.trans later)
        fun _ _ _ => trivial

/-- **Reporting and ending.** -/
theorem process_moves (tidy : c.scheduler.Tidy) (ids : List RequestId) (tokenizer : Tokenizer)
    (maxLength : Nat) :
    Meets (process ids tokenizer maxLength) c (fun finished d => c.Moved [] [] finished [] d)
      (fun _ _ => True) := by
  rw [meets_process]
  refine (report_moves ids c tidy).mono (fun batch d told => ?_) (fun _ _ _ => trivial)
  have delivered : d.Moved [] [] [] [] { d with delivered := d.delivered ++ [batch] } :=
    ⟨⟨told.orderly.tidy, List.Sublist.refl _, List.Subset.refl _, rfl⟩,
      by rw [List.append_nil]; rfl, ⟨_, rfl, rfl⟩, List.nil_subset _, (Mute.refl d).notes⟩
  exact (reclaim_moves (finishedIn batch) _ delivered.orderly.tidy).mono
    (fun _ _ ended => (told.trans delivered).trans ended) fun _ _ _ => trivial

/-- **A step** that is not refused moves the requests that its report names, and writes down what
the report says. -/
theorem step_moves (tidy : c.scheduler.Tidy) (tokenizer : Tokenizer) (settings : EngineSettings) :
    Meets (step tokenizer settings) c
      (fun report d => c.Moved report.admitted report.preempted report.finished report.entries d)
      (fun _ _ => True) := by
  refine step_rule (fun _ => .refl tidy) fun _ => ?_
  unfold turn
  rw [meets_bind]
  refine (admitFitting_moves tidy settings.maxRunning).mono (fun admitted d opened => ?_)
    (fun _ _ _ => trivial)
  refine (feedBatch_moves opened.orderly.tidy admitted).mono ?_ (fun _ _ _ => trivial)
  rintro report e ⟨rfl, fed⟩
  refine (Yields.anyhow _).mono (fun ids _ => ?_) (fun _ _ => trivial)
  refine (process_moves fed.orderly.tidy ids tokenizer settings.maxLength).mono
    (fun finished f ended => ?_) (fun _ _ _ => trivial)
  refine ((recordAll_notes .finished finished f).and
    (recordAll_steady finished .finished f)).mono ?_ (fun _ _ _ => trivial)
  rintro _ g ⟨notes, steady⟩
  have moved := ((opened.trans fed).trans ended).trans
    (.of_steady ended.orderly.tidy steady notes)
  simp only [List.append_nil, List.nil_append, ← List.append_assoc] at moved
  exact moved

end Cluster

end ContinuousBatching
