/-
**What a computation may end in.**

`Yields x done stopped` says of a checked value that it satisfies `done` if it is there and that the
reason satisfies `stopped` if it is not. `Meets action s done stopped` says the same of an action
that starts in the state `s`, and speaks about the state in which the action ends as well. Both are
decided by running the computation, so every way of putting computations together has a rule that is
an equivalence:

* `meets_bind`, `meets_pure`, `meets_get`, `meets_set`, `meets_modify`, `meets_refuse`,
  `meets_liftM`, `meets_on`: the rules that walk through the text of an action;
* `Meets.mono`, `Meets.with_run`: a weaker statement, and one about the run itself;
* `Meets.forM`: what a loop over a list keeps, stated for the elements that are still to come;
* `Meets.of_error`: what is known about a run that has ended;
* `Leads`, `Leads.bind`, `Leads.forM`: an action that keeps to a relation, however it ends;
* `logged`, `exists_logged`: a history of operations with a log, and what all of them keep;
* `Count.add_yields`, `totalLength_yields`: a checked count is the exact one, or it needs more than
  64 bits.
-/

import ContinuousBatching.Cache.Replica
import ContinuousBatching.Proofs.Sums

namespace ContinuousBatching

variable {σ τ α β : Type}

/-- The value satisfies `done`, or the reason why there is none satisfies `stopped`. -/
def Yields (x : Checked α) (done : α → Prop) (stopped : Stop → Prop) : Prop :=
  match x with
  | .ok value => done value
  | .error stop => stopped stop

/-- Started in `s`, the action ends with a value and a state that satisfy `done`, or with a reason
and a state that satisfy `stopped`. -/
def Meets (action : Action σ α) (s : σ) (done : α → σ → Prop) (stopped : Stop → σ → Prop) : Prop :=
  match action s with
  | .ok value t => done value t
  | .error stop t => stopped stop t

/-- The value and the state that the action ends with, unless it is stopped. -/
def completed (action : Action σ α) (s : σ) : Option (α × σ) :=
  match action s with
  | .ok value t => some (value, t)
  | .error _ _ => none

/-! ### Checked values -/

section Checked

variable {done : α → Prop} {stopped : Stop → Prop}

@[simp]
theorem yields_ok {value : α} : Yields (.ok value) done stopped ↔ done value := Iff.rfl

@[simp]
theorem yields_error {stop : Stop} : Yields (.error stop) done stopped ↔ stopped stop := Iff.rfl

@[simp]
theorem yields_pure {value : α} : Yields (pure value) done stopped ↔ done value := Iff.rfl

@[simp]
theorem yields_bind {x : Checked β} {next : β → Checked α} :
    Yields (x >>= next) done stopped ↔
      Yields x (fun value => Yields (next value) done stopped) stopped := by
  cases x <;> exact Iff.rfl

theorem Yields.mono {x : Checked α} {done' : α → Prop} {stopped' : Stop → Prop}
    (yields : Yields x done stopped) (value : ∀ a, done a → done' a)
    (reason : ∀ stop, stopped stop → stopped' stop) : Yields x done' stopped' := by
  cases x with
  | ok a => exact value a yields
  | error stop => exact reason stop yields

/-- A computation that is there in the end was there at every point. -/
theorem bind_eq_ok_iff {ε : Type} {x : Except ε β} {next : β → Except ε α} {value : α} :
    x >>= next = .ok value ↔ ∃ b, x = .ok b ∧ next b = .ok value := by
  cases x with
  | ok b => exact ⟨fun run => ⟨b, rfl, run⟩, fun ⟨_, same, run⟩ => by cases same; exact run⟩
  | error stop => exact ⟨fun run => (by cases run), fun ⟨_, same, _⟩ => by cases same⟩

/-- What a value satisfies, together with where it comes from. -/
theorem Yields.with_run {x : Checked α} (yields : Yields x done stopped) :
    Yields x (fun value => done value ∧ x = .ok value) stopped := by
  cases x with
  | ok value => exact ⟨yields, rfl⟩
  | error stop => exact yields

theorem Yields.anyhow (x : Checked α) : Yields x (fun _ => True) fun _ => True := by
  cases x <;> trivial

theorem Yields.of_ok {x : Checked α} {value : α} (yields : Yields x done stopped)
    (ended : x = .ok value) : done value := by
  subst ended
  exact yields

theorem Yields.of_error {x : Checked α} {stop : Stop} (yields : Yields x done stopped)
    (ended : x = .error stop) : stopped stop := by
  subst ended
  exact yields

/-- A computation that nothing can stop has a value. -/
theorem Yields.exists_ok {x : Checked α} (yields : Yields x done stopped)
    (never : ∀ stop, ¬ stopped stop) : ∃ value, x = .ok value ∧ done value := by
  cases x with
  | ok value => exact ⟨value, rfl, yields⟩
  | error stop => exact absurd yields (never stop)

end Checked

/-! ### Actions -/

section Action

variable {s : σ} {done : α → σ → Prop} {stopped : Stop → σ → Prop}

@[simp]
theorem meets_pure {value : α} : Meets (pure value) s done stopped ↔ done value s := Iff.rfl

@[simp]
theorem meets_bind {action : Action σ β} {next : β → Action σ α} :
    Meets (action >>= next) s done stopped ↔
      Meets action s (fun value t => Meets (next value) t done stopped) stopped := by
  show (match EStateM.bind action next s with
    | .ok value t => done value t
    | .error stop t => stopped stop t) ↔ _
  unfold EStateM.bind Meets
  cases action s <;> exact Iff.rfl

@[simp]
theorem meets_map {action : Action σ β} {change : β → α} :
    Meets (change <$> action) s done stopped ↔
      Meets action s (fun value t => done (change value) t) stopped := by
  show (match EStateM.map change action s with
    | .ok value t => done value t
    | .error stop t => stopped stop t) ↔ _
  unfold EStateM.map Meets
  cases action s <;> exact Iff.rfl

@[simp]
theorem meets_discard {action : Action σ β} {done : PUnit → σ → Prop} :
    Meets (discard action) s done stopped ↔ Meets action s (fun _ t => done ⟨⟩ t) stopped :=
  meets_map

@[simp]
theorem meets_get {done : σ → σ → Prop} : Meets get s done stopped ↔ done s s := Iff.rfl

@[simp]
theorem meets_set {t : σ} {done : PUnit → σ → Prop} :
    Meets (set t) s done stopped ↔ done ⟨⟩ t := Iff.rfl

@[simp]
theorem meets_modify {change : σ → σ} {done : PUnit → σ → Prop} :
    Meets (modify change) s done stopped ↔ done ⟨⟩ (change s) := Iff.rfl

@[simp]
theorem meets_refuse {cause : Failure} :
    Meets (refuse cause) s done stopped ↔ stopped (.refused cause) s := Iff.rfl

@[simp]
theorem meets_faultWith {kind : Fault} :
    Meets (faultWith kind) s done stopped ↔ stopped (.fault kind) s := Iff.rfl

@[simp]
theorem meets_liftM {x : Checked α} :
    Meets (liftM x) s done stopped ↔
      Yields x (fun value => done value s) (fun stop => stopped stop s) := by
  cases x <;> exact Iff.rfl

@[simp]
theorem meets_on {action : Action τ α} {part : σ → τ} {put : τ → σ → σ} :
    Meets (action.on part put) s done stopped ↔
      Meets action (part s) (fun value t => done value (put t s))
        (fun stop t => stopped stop (put t s)) := by
  unfold Meets Action.on
  cases action (part s) <;> exact Iff.rfl

theorem Meets.mono {action : Action σ α} {done' : α → σ → Prop} {stopped' : Stop → σ → Prop}
    (meets : Meets action s done stopped) (value : ∀ a t, done a t → done' a t)
    (reason : ∀ stop t, stopped stop t → stopped' stop t) : Meets action s done' stopped' := by
  unfold Meets at meets ⊢
  cases run : action s with
  | ok a t =>
      rw [run] at meets
      exact value a t meets
  | error stop t =>
      rw [run] at meets
      exact reason stop t meets

/-- Two things that an action meets. -/
theorem Meets.and {action : Action σ α} {done' : α → σ → Prop} {stopped' : Stop → σ → Prop}
    (first : Meets action s done stopped) (second : Meets action s done' stopped') :
    Meets action s (fun a t => done a t ∧ done' a t)
      (fun stop t => stopped stop t ∧ stopped' stop t) := by
  unfold Meets at first second ⊢
  cases run : action s with
  | ok a t =>
      rw [run] at first second
      exact ⟨first, second⟩
  | error stop t =>
      rw [run] at first second
      exact ⟨first, second⟩

/-- What an action that succeeds satisfies, together with its run. -/
theorem Meets.with_run {action : Action σ α} (meets : Meets action s done stopped) :
    Meets action s (fun a t => done a t ∧ action s = .ok a t) stopped := by
  unfold Meets at meets ⊢
  cases run : action s with
  | ok a t =>
      rw [run] at meets
      exact ⟨meets, rfl⟩
  | error stop t =>
      rw [run] at meets
      exact meets

/-- The two ways in which an action ends. -/
theorem Meets.ends {action : Action σ α} (meets : Meets action s done stopped) :
    (∃ value t, action s = .ok value t ∧ done value t) ∨
      ∃ stop t, action s = .error stop t ∧ stopped stop t := by
  unfold Meets at meets
  cases run : action s with
  | ok value t =>
      rw [run] at meets
      exact Or.inl ⟨value, t, rfl, meets⟩
  | error stop t =>
      rw [run] at meets
      exact Or.inr ⟨stop, t, rfl, meets⟩

theorem Meets.of_error {action : Action σ α} {stop : Stop} {t : σ}
    (meets : Meets action s done stopped) (ended : action s = .error stop t) : stopped stop t := by
  unfold Meets at meets
  rw [ended] at meets
  exact meets

/-- An action that can only end in one way ends in that way. -/
theorem Meets.run_eq {action : Action σ α} {value : α} {t : σ}
    (meets : Meets action s (fun a u => a = value ∧ u = t) (fun _ _ => False)) :
    action s = .ok value t := by
  unfold Meets at meets
  cases run : action s with
  | ok a u =>
      rw [run] at meets
      obtain ⟨rfl, rfl⟩ := meets
      rfl
  | error stop u =>
      rw [run] at meets
      exact meets.elim

/-- An action that can only stop in one way stops in that way. -/
theorem Meets.stop_eq {action : Action σ α} {stop : Stop} {t : σ}
    (meets : Meets action s (fun _ _ => False) (fun reason u => reason = stop ∧ u = t)) :
    action s = .error stop t := by
  rcases meets.ends with ⟨_, _, _, impossible⟩ | ⟨_, _, run, rfl, rfl⟩
  · exact impossible.elim
  · exact run

/-- A run that is known decides what the action meets. -/
theorem meets_iff_of_ok {action : Action σ α} {value : α} {t : σ} (ended : action s = .ok value t) :
    Meets action s done stopped ↔ done value t := by
  unfold Meets
  rw [ended]

theorem completed_eq_some {action : Action σ α} {value : α} {t : σ} :
    completed action s = some (value, t) ↔ action s = .ok value t := by
  unfold completed
  cases action s <;> simp

/-- However an action ends, it ends. -/
theorem Meets.anyhow (action : Action σ α) (s : σ) :
    Meets action s (fun _ _ => True) fun _ _ => True := by
  unfold Meets
  cases action s <;> trivial

/-- **A loop over a list.** What holds of the elements still to come, before each of them is
treated, holds of none at the end. -/
theorem Meets.forM {action : α → Action σ PUnit} {stopped : Stop → σ → Prop}
    (invariant : List α → σ → Prop)
    (step : ∀ a rest t, invariant (a :: rest) t →
      Meets (action a) t (fun _ u => invariant rest u) stopped) :
    ∀ (list : List α) (s : σ), invariant list s →
      Meets (list.forM action) s (fun _ t => invariant [] t) stopped
  | [], _, start => start
  | a :: rest, s, start => by
      show Meets (action a >>= fun _ => rest.forM action) s _ _
      rw [meets_bind]
      exact (step a rest s start).mono (fun _ t kept => Meets.forM invariant step rest t kept)
        (fun _ _ => id)

end Action

/-! ### Where an action leads -/

/-- However the action ends, the state in which it ends is related to the one in which it started.
-/
def Leads (R : σ → σ → Prop) (action : Action σ α) (s : σ) : Prop :=
  Meets action s (fun _ t => R s t) fun _ t => R s t

section Leads

variable {R : σ → σ → Prop} {s : σ}

theorem Leads.mono {action : Action σ α} {Q : σ → σ → Prop} (leads : Leads R action s)
    (weaker : ∀ t, R s t → Q s t) : Leads Q action s :=
  Meets.mono leads (fun _ t => weaker t) fun _ t => weaker t

/-- An action that is reached by way of another state. -/
theorem Leads.after {action : Action σ α} {t : σ} (trans : ∀ {t u}, R s t → R t u → R s u)
    (led : R s t) (leads : Leads R action t) :
    Meets action t (fun _ u => R s u) fun _ u => R s u :=
  Meets.mono leads (fun _ _ => trans led) fun _ _ => trans led

/-- One action after another. -/
theorem Leads.bind {action : Action σ β} {next : β → Action σ α}
    (trans : ∀ {t u}, R s t → R t u → R s u) (first : Leads R action s)
    (later : ∀ value t, R s t → Leads R (next value) t) : Leads R (action >>= next) s := by
  rw [Leads, meets_bind]
  exact Meets.mono first (fun value t led => (later value t led).after trans led) fun _ _ led => led

/-- A checked value before an action. -/
theorem Leads.liftM_bind {x : Checked β} {next : β → Action σ α} (same : R s s)
    (later : ∀ value, x = .ok value → Leads R (next value) s) : Leads R (liftM x >>= next) s := by
  rw [Leads, meets_bind, meets_liftM]
  cases x with
  | ok value => exact later value rfl
  | error stop => exact same

theorem Leads.forM {action : α → Action σ PUnit} (trans : ∀ {t u}, R s t → R t u → R s u)
    (same : R s s) (step : ∀ a t, R s t → Leads R (action a) t) (list : List α) :
    Leads R (list.forM action) s := by
  rw [Leads]
  exact Meets.forM (fun _ t => R s t) (fun a _ t led => (step a t led).after trans led) list s same

end Leads

/-! ### Histories -/

section Logged

variable {ω ρ ι : Type} {run : ω → Action σ ρ} {note : σ → ω → ρ → ι → ι}

/-- The state and the log after operations, one after the other, if none of them faults. An
operation that is carried out is noted in the log; one that is refused is not, and the next one
finds whatever it left behind. -/
def logged (run : ω → Action σ ρ) (note : σ → ω → ρ → ι → ι) (s : σ) (log : ι) :
    List ω → Option (σ × ι)
  | [] => some (s, log)
  | operation :: rest =>
    match run operation s with
    | .ok reply t => logged run note t (note s operation reply log) rest
    | .error (.refused _) t => logged run note t log rest
    | .error (.fault _) _ => none

/-- **A history.** What every operation keeps, if it does not fault, is kept by all of them. -/
theorem exists_logged {kept : σ → ι → Prop}
    (step : ∀ operation s log, kept s log →
      Meets (run operation) s (fun reply t => kept t (note s operation reply log))
        (fun stop t => (∃ cause, stop = .refused cause) ∧ kept t log)) :
    ∀ (operations : List ω) (s : σ) (log : ι), kept s log →
      ∃ t final, logged run note s log operations = some (t, final) ∧ kept t final
  | [], s, log, start => ⟨s, log, rfl, start⟩
  | operation :: rest, s, log, start => by
      unfold logged
      rcases (step operation s log start).ends with
        ⟨reply, t, ran, now⟩ | ⟨_, t, ran, ⟨cause, rfl⟩, now⟩
      · rw [ran]
        exact exists_logged step rest t _ now
      · rw [ran]
        exact exists_logged step rest t log now

end Logged

/-! ### Tests and lists -/

theorem allChecked_map {test : β → Checked Bool} {f : α → β} :
    ∀ {list : List α}, allChecked test (list.map f) = allChecked (fun a => test (f a)) list
  | [] => rfl
  | a :: rest => by simp only [List.map_cons, allChecked, allChecked_map]

/-- A test of a list stops only where one of its elements makes it stop. -/
theorem allChecked_yields {test : α → Checked Bool} {accepts : α → Prop} {stopped : Stop → Prop} :
    ∀ {list : List α},
      (∀ a ∈ list, Yields (test a) (fun answer => answer = true ↔ accepts a) stopped) →
      Yields (allChecked test list) (fun answer => answer = true ↔ ∀ a ∈ list, accepts a) stopped
  | [], _ => by simp [allChecked]
  | a :: rest, answers => by
      have later := allChecked_yields fun b member => answers b (List.mem_cons_of_mem a member)
      simp only [allChecked, yields_bind]
      refine (answers a List.mem_cons_self).mono (fun answer here => ?_) (fun _ => id)
      cases answer with
      | false =>
          simp only [Bool.false_eq_true, false_iff, if_false, yields_pure] at here ⊢
          exact fun all => here (all a List.mem_cons_self)
      | true =>
          simp only [true_iff, if_true] at here ⊢
          refine later.mono (fun _ there => ?_) (fun _ => id)
          rw [there, List.forall_mem_cons]
          exact (and_iff_right here).symm

/-- A computation that never stops is carried through a list. -/
theorem mapM_eq_map {compute : α → Checked β} {result : α → β} :
    ∀ {list : List α}, (∀ a ∈ list, compute a = .ok (result a)) →
      list.mapM compute = .ok (list.map result)
  | [], _ => rfl
  | a :: rest, computes => by
      have later := mapM_eq_map fun b member => computes b (List.mem_cons_of_mem a member)
      rw [List.mapM_cons, computes a List.mem_cons_self, later]
      rfl

/-! ### Counts -/

/-- A computation stopped because a count needs more than 64 bits, and `bound` does so, too. -/
def Overflows (bound : Nat) (stop : Stop) : Prop :=
  stop = .fault .overflow ∧ Count.limit ≤ bound

theorem Overflows.mono {first second : Nat} {stop : Stop} (overflows : Overflows first stop)
    (le : first ≤ second) : Overflows second stop :=
  ⟨overflows.1, Nat.le_trans overflows.2 le⟩

/-- A number is the count that was asked for, or it needs more than 64 bits. -/
theorem Count.fit_yields (n : Nat) :
    Yields (Count.fit n) (fun m => m = n ∧ n < Count.limit)
      (fun stop => stop = .fault .overflow ∧ Count.limit ≤ n) := by
  unfold Count.fit
  by_cases fits : n < Count.limit
  · simp [fits]
  · simp [fits, Nat.le_of_not_lt fits]

theorem Count.add_yields (a b : Nat) :
    Yields (Count.add a b) (fun m => m = a + b ∧ a + b < Count.limit)
      (fun stop => stop = .fault .overflow ∧ Count.limit ≤ a + b) :=
  Count.fit_yields (a + b)

theorem Count.sum_yields (counts : List Nat) :
    Yields (Count.sum counts) (fun m => m = counts.sum ∧ counts.sum < Count.limit)
      (fun stop => stop = .fault .overflow ∧ Count.limit ≤ counts.sum) := by
  have from_on : ∀ (counts : List Nat) (begun : Nat), begun < Count.limit →
      Yields (counts.foldlM Count.add begun)
        (fun m => m = begun + counts.sum ∧ begun + counts.sum < Count.limit)
        (fun stop => stop = .fault .overflow ∧ Count.limit ≤ begun + counts.sum) := by
    intro counts
    induction counts with
    | nil => exact fun begun fits => ⟨rfl, fits⟩
    | cons count counts ih =>
        intro begun _
        rw [List.foldlM_cons, yields_bind, List.sum_cons, ← Nat.add_assoc]
        refine (Count.add_yields begun count).mono ?_ ?_
        · intro _ sum
          rw [sum.1]
          exact ih _ sum.2
        · intro _ overflow
          exact ⟨overflow.1, Nat.le_trans overflow.2 (Nat.le_add_right _ _)⟩
  have total := from_on counts 0 (by decide)
  rwa [Nat.zero_add] at total

theorem positions_eq_sum (chunks : List Chunk) : positions chunks = (chunks.map Chunk.length).sum :=
  rfl

theorem totalLength_yields (chunks : List Chunk) :
    Yields (totalLength chunks) (fun m => m = positions chunks ∧ positions chunks < Count.limit)
      (fun stop => stop = .fault .overflow ∧ Count.limit ≤ positions chunks) :=
  Count.sum_yields _

end ContinuousBatching
