/-
**Which sequence id is handed out next.**

Ids may be asked for and given back in any order, and what is given back may be an id that is not
live or was never handed out. Beside the ids a history keeps a `Log` of what was handed out and of
what was taken back. The log decides what comes next: the id that was taken back last among those
that are not live, and a fresh one only if there is none (`Log.due`). So no id is wasted, and those
in use stay below the capacity for ever:

* `Log.idle`: the ids that can be used again, in the order in which they will be;
* `Logged`: the ids are sound, and what is free is what the log says;
* `Logged.run_meets`: one operation, whether it is carried out or refused;
* `SequenceIds.dense_after`: **any operations**.
-/

import ContinuousBatching.Proofs.Repetitions
import ContinuousBatching.Proofs.SequenceIds

namespace ContinuousBatching.SequenceIds

/-- What can be asked of the ids. -/
inductive Operation where
  | allocate
  | recycle (id : SequenceId)
  deriving DecidableEq, Repr

/-- Carries an operation out, and tells the id that it hands out. -/
def Operation.run : Operation → Action SequenceIds (Option SequenceId)
  | .allocate => some <$> SequenceIds.allocate
  | .recycle id => (fun _ => none) <$> SequenceIds.recycle id

/-- The ids that were handed out and those that were taken back, the latest one first. -/
structure Log where
  issued : List SequenceId
  returned : List SequenceId
  deriving DecidableEq, Repr

namespace Log

def empty : Log := ⟨[], []⟩

/-- The log after an operation that was carried out. -/
def note (_ : SequenceIds) (operation : Operation) (reply : Option SequenceId) (log : Log) : Log :=
  match operation with
  | .allocate => { log with issued := reply.toList ++ log.issued }
  | .recycle id => { log with returned := id :: log.returned }

/-- The ids that were taken back and are not live, in the order of their latest return. -/
def idle (log : Log) (live : List SequenceId) : List SequenceId :=
  (log.returned.filter fun id => id ∉ live).eraseDups

/-- The id that comes next: the one that was taken back last among those that are not live, or else
the smallest one that was never handed out. -/
def due (log : Log) (ids : SequenceIds) : SequenceId :=
  (log.returned.find? fun id => id ∉ ids.live).getD ids.fresh

/-- The first one that is idle is the one that was taken back last. -/
theorem head?_idle (log : Log) (live : List SequenceId) :
    (log.idle live).head? = log.returned.find? fun id => id ∉ live := by
  rw [idle, ← List.head?_filter]
  cases log.returned.filter fun id => id ∉ live with
  | nil => rfl
  | cons id rest => rw [List.eraseDups_cons, List.head?_cons, List.head?_cons]

/-- Whatever becomes live is idle no more. -/
theorem idle_cons (log : Log) (id : SequenceId) (live : List SequenceId) :
    log.idle (id :: live) = (log.idle live).filter fun other => other ≠ id := by
  have both : (log.returned.filter fun other => other ∉ id :: live) =
      (log.returned.filter fun other => other ∉ live).filter fun other => other ≠ id := by
    rw [List.filter_filter]
    refine List.filter_congr fun other _ => ?_
    by_cases same : other = id <;> simp [same]
  rw [idle, both, eraseDups_filter]
  rfl

/-- Whatever is taken back is idle again, before all others. -/
theorem idle_erase (log : Log) {id : SequenceId} {live : List SequenceId} (nodup : live.Nodup)
    (member : id ∈ live) :
    Log.idle { log with returned := id :: log.returned } (live.erase id) = id :: log.idle live := by
  have gone : id ∉ live.erase id := nodup.not_mem_erase
  have others : ((log.returned.filter fun other => other ∉ live.erase id).filter
      fun other => !other == id) = log.returned.filter fun other => other ∉ live := by
    rw [List.filter_filter]
    refine List.filter_congr fun other _ => ?_
    by_cases same : other = id
    · simp [same, member]
    · simp [same, List.mem_erase_of_ne same]
  rw [idle, List.filter_cons_of_pos (by simpa using gone), List.eraseDups_cons, others]
  rfl

end Log

/-! ### What every operation keeps -/

/-- The ids are sound, they were handed out as the log says, and what is free is what is idle. -/
structure Logged (capacity : Nat) (ids : SequenceIds) (log : Log) : Prop where
  sound : ids.Sound
  capacity : ids.capacity = capacity
  issued : ∀ id, id ∈ log.issued ↔ id < ids.fresh
  free : ids.free = log.idle ids.live

variable {capacity : Nat} {ids : SequenceIds} {log : Log}

theorem logged_ofCapacity (capacity : Nat) : (ofCapacity capacity).Logged capacity .empty where
  sound := ofCapacity_sound capacity
  capacity := rfl
  issued := fun id => iff_of_false List.not_mem_nil (Nat.not_lt_zero id)
  free := rfl

namespace Logged

theorem due_eq (logged : ids.Logged capacity log) : log.due ids = ids.free.headD ids.fresh := by
  rw [Log.due, ← Log.head?_idle, ← logged.free, List.headD_eq_head?_getD]

/-- **Handing out an id.** -/
theorem allocate_meets (logged : ids.Logged capacity log) :
    Meets allocate ids
      (fun id next => ids.live.length < capacity ∧ id = log.due ids ∧ id ∉ ids.live ∧
        next.live = id :: ids.live ∧
        next.Logged capacity { log with issued := id :: log.issued })
      (fun stop next => capacity ≤ ids.live.length ∧
        stop = .refused (.sequenceIdsExhausted capacity) ∧ next = ids) := by
  obtain ⟨sound, rfl, issued, free⟩ := logged
  refine ((SequenceIds.allocate_meets sound).and (allocate_hands ids)).mono ?_ ?_
  · rintro id next ⟨⟨sound', absent, live, same⟩, room, hands⟩
    refine ⟨room, ?_, absent, live, sound', same, ?_, ?_⟩
    · rw [due_eq ⟨sound, rfl, issued, free⟩]
      rcases hands with ⟨rest, recycled, -⟩ | ⟨none, rfl, -⟩
      · rw [recycled, List.headD_cons]
      · rw [none, List.headD_nil]
    · intro other
      rw [List.mem_cons, issued]
      rcases hands with ⟨rest, recycled, rfl⟩ | ⟨none, rfl, rfl⟩
      · have below : id < ids.fresh :=
          sound.lt_fresh (List.mem_append_right _ (recycled ▸ List.mem_cons_self))
        constructor
        · rintro (rfl | earlier)
          · exact below
          · exact earlier
        · exact Or.inr
      · rw [Nat.lt_succ_iff, Nat.le_iff_lt_or_eq, or_comm]
    · rw [live]
      refine Eq.trans ?_ (Log.idle_cons log id ids.live).symm
      rw [← free]
      rcases hands with ⟨rest, recycled, rfl⟩ | ⟨none, rfl, rfl⟩
      · have nodup := (List.nodup_append.mp sound.nodup).2.1
        rw [recycled, List.nodup_cons] at nodup
        rw [recycled, List.filter_cons_of_neg (by simp)]
        refine (List.filter_eq_self.mpr fun other member => ?_).symm
        have differ : other ≠ id := fun same => nodup.1 (same ▸ member)
        simpa using differ
      · show ids.free = _
        rw [none]
        rfl
  · rintro stop next ⟨⟨refused, same, full⟩, -⟩
    exact ⟨full, refused, same⟩

/-- **Taking an id back**, or whatever is said to be one. -/
theorem recycle_meets (logged : ids.Logged capacity log) (id : SequenceId) :
    Meets (recycle id) ids
      (fun _ next => id ∈ ids.live ∧ next.live = ids.live.erase id ∧
        next.Logged capacity { log with returned := id :: log.returned })
      (fun stop next => id ∉ ids.live ∧ stop = .refused (.sequenceIdNotLive id) ∧ next = ids) := by
  refine ((SequenceIds.recycle_meets logged.sound id).and (recycle_takes ids id)).mono ?_ ?_
  · rintro _ _ ⟨⟨sound, -, -, same⟩, member, rfl⟩
    refine ⟨member, rfl, sound, same.trans logged.capacity, logged.issued, ?_⟩
    show id :: ids.free = _
    rw [logged.free]
    exact (Log.idle_erase log logged.sound.nodup_live member).symm
  · rintro _ _ ⟨⟨refused, same, absent⟩, -⟩
    exact ⟨absent, refused, same⟩

/-- **One operation.** A refused one changes nothing. -/
theorem run_meets (logged : ids.Logged capacity log) (operation : Operation) :
    Meets operation.run ids
      (fun reply next => next.Logged capacity (Log.note ids operation reply log))
      (fun stop next => (∃ cause, stop = .refused cause) ∧ next.Logged capacity log) := by
  cases operation with
  | allocate =>
      unfold Operation.run
      rw [meets_map]
      refine logged.allocate_meets.mono (fun id next meets => meets.2.2.2.2) ?_
      rintro _ _ ⟨-, rfl, rfl⟩
      exact ⟨⟨_, rfl⟩, logged⟩
  | recycle id =>
      unfold Operation.run
      rw [meets_map]
      refine (logged.recycle_meets id).mono (fun _ next meets => meets.2.2) ?_
      rintro _ _ ⟨-, rfl, rfl⟩
      exact ⟨⟨_, rfl⟩, logged⟩

end Logged

/-! ### Any operations -/

/-- What holds of the ids at any time, with the log of what has happened. -/
structure Dense (capacity : Nat) (ids : SequenceIds) (log : Log) : Prop where
  nodup_live : ids.live.Nodup
  nodup_free : ids.free.Nodup
  apart : ∀ id ∈ ids.live, id ∉ ids.free
  cover : ∀ id, id ∈ ids.live ∨ id ∈ ids.free ↔ id < ids.fresh
  bounded : ids.fresh ≤ capacity
  issued_iff : ∀ id, id ∈ log.issued ↔ id < ids.fresh
  /-- An id is handed out exactly if fewer are live than there may be, and it is the one that is
  due. -/
  allocates : Meets allocate ids
    (fun id next => ids.live.length < capacity ∧ id = log.due ids ∧ id ∉ ids.live ∧
      next.live = id :: ids.live)
    (fun stop next => capacity ≤ ids.live.length ∧
      stop = .refused (.sequenceIdsExhausted capacity) ∧ next = ids)
  /-- An id is taken back exactly if it is live. -/
  recycles : ∀ id, Meets (recycle id) ids
    (fun _ next => id ∈ ids.live ∧ next.live = ids.live.erase id)
    (fun stop next => id ∉ ids.live ∧ stop = .refused (.sequenceIdNotLive id) ∧ next = ids)

theorem Logged.dense (logged : ids.Logged capacity log) : ids.Dense capacity log where
  nodup_live := logged.sound.nodup_live
  nodup_free := (List.nodup_append.mp logged.sound.nodup).2.1
  apart := fun id live free => (List.nodup_append.mp logged.sound.nodup).2.2 id live id free rfl
  cover := fun id => by
    rw [← List.mem_append, logged.sound.cover.mem_iff, List.mem_range]
  bounded := logged.capacity ▸ logged.sound.bounded
  issued_iff := logged.issued
  allocates := logged.allocate_meets.mono
    (fun _ _ meets => ⟨meets.1, meets.2.1, meets.2.2.1, meets.2.2.2.1⟩) fun _ _ stopped => stopped
  recycles := fun id => (logged.recycle_meets id).mono
    (fun _ _ meets => ⟨meets.1, meets.2.1⟩) fun _ _ stopped => stopped

/-- **Ids stay dense.** Whatever is asked for and given back, nothing faults. The live ids and those
that are free to be used again are those ever handed out, which are the smallest ones and all below
the capacity, and none of them is listed twice. The next request for an id is granted exactly if
fewer are live than the capacity, with the id that was taken back last among those that are not
live, or with a fresh one if there is none; an id is taken back exactly if it is live; and a refusal
changes nothing. -/
theorem dense_after (capacity : Nat) (operations : List Operation) :
    ∃ ids log, logged Operation.run Log.note (ofCapacity capacity) .empty operations =
      some (ids, log) ∧ ids.Dense capacity log := by
  have step : ∀ operation ids log, Logged capacity ids log →
      Meets (Operation.run operation) ids
        (fun reply next => next.Logged capacity (Log.note ids operation reply log))
        (fun stop next => (∃ cause, stop = .refused cause) ∧ next.Logged capacity log) :=
    fun operation _ _ kept => kept.run_meets operation
  obtain ⟨ids, log, ran, kept⟩ := exists_logged step operations _ _ (logged_ofCapacity capacity)
  exact ⟨ids, log, ran, kept.dense⟩

/-- After 0, 1 and 2 were handed out, 0 and then 1 was taken back, twice each, and one id was handed
out again, it is 0 that comes next. -/
example : (logged Operation.run Log.note (ofCapacity 3) .empty
    [.allocate, .allocate, .allocate, .allocate, .recycle 0, .recycle 1, .recycle 0, .recycle 1,
      .recycle 7, .allocate]).map (fun ended => (ended.1.live, ended.2.due ended.1)) =
    some ([1, 2], 0) := by decide

end ContinuousBatching.SequenceIds
