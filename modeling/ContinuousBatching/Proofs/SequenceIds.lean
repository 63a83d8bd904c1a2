/-
**Sequence ids stay dense.**

The live ids and the recycled ones are together exactly the ids below `fresh`, none of them twice,
and there are never more of them than the capacity (`SequenceIds.Sound`). Handing out and taking
back keep that:

* `SequenceIds.allocate_meets`: an id that was not live becomes live, unless as many ids are live as
  there may be;
* `SequenceIds.recycle_meets`: a live id is live no more, and an id that is not live is refused.
-/

import ContinuousBatching.Proofs.Outcome
import ContinuousBatching.SequenceIds
import Mathlib.Data.List.Perm.Subperm

namespace ContinuousBatching.SequenceIds

/-- The ids in use and the recycled ones are those below `fresh`, none of them twice. -/
structure Sound (ids : SequenceIds) : Prop where
  cover : (ids.live ++ ids.free).Perm (List.range ids.fresh)
  bounded : ids.fresh ≤ ids.capacity

variable {ids : SequenceIds}

theorem ofCapacity_sound (capacity : Nat) : (ofCapacity capacity).Sound where
  cover := List.Perm.refl _
  bounded := Nat.zero_le _

namespace Sound

theorem nodup (sound : ids.Sound) : (ids.live ++ ids.free).Nodup :=
  sound.cover.nodup_iff.mpr List.nodup_range

theorem nodup_live (sound : ids.Sound) : ids.live.Nodup :=
  (List.nodup_append.mp sound.nodup).1

theorem lt_fresh (sound : ids.Sound) {id : SequenceId} (member : id ∈ ids.live ++ ids.free) :
    id < ids.fresh :=
  List.mem_range.mp (sound.cover.mem_iff.mp member)

/-- The ids ever handed out are live or were recycled. -/
theorem length_add (sound : ids.Sound) : ids.live.length + ids.free.length = ids.fresh := by
  rw [← List.length_append, sound.cover.length_eq, List.length_range]

end Sound

/-! ### Handing out and taking back -/

/-- What handing out an id does: it takes the one that was recycled last, or a fresh one. -/
theorem allocate_hands (ids : SequenceIds) :
    Meets allocate ids
      (fun id next => ids.live.length < ids.capacity ∧
        ((∃ free, ids.free = id :: free ∧
            next = { ids with live := id :: ids.live, free := free }) ∨
          (ids.free = [] ∧ id = ids.fresh ∧
            next = { ids with live := ids.fresh :: ids.live, fresh := ids.fresh + 1 })))
      (fun stop next => stop = .refused (.sequenceIdsExhausted ids.capacity) ∧ next = ids ∧
        ids.capacity ≤ ids.live.length) := by
  unfold allocate
  rw [meets_bind, meets_get]
  by_cases full : ids.capacity ≤ ids.liveCount
  · rw [if_pos full]
    exact ⟨rfl, rfl, full⟩
  · rw [if_neg full]
    have room : ids.live.length < ids.capacity := Nat.lt_of_not_le full
    split
    · rename_i id free recycled
      exact ⟨room, Or.inl ⟨free, recycled, rfl⟩⟩
    · rename_i none
      exact ⟨room, Or.inr ⟨none, rfl, rfl⟩⟩

/-- What taking an id back does. -/
theorem recycle_takes (ids : SequenceIds) (id : SequenceId) :
    Meets (recycle id) ids
      (fun _ next => id ∈ ids.live ∧
        next = { ids with live := ids.live.erase id, free := id :: ids.free })
      (fun stop next => stop = .refused (.sequenceIdNotLive id) ∧ next = ids ∧ id ∉ ids.live) := by
  unfold recycle
  rw [meets_bind, meets_get]
  by_cases live : id ∈ ids.live
  · rw [if_pos live]
    exact ⟨live, rfl⟩
  · rw [if_neg live]
    exact ⟨rfl, rfl, live⟩

/-- **Handing out an id.** It was not live before; the request is only refused if as many ids are
live as there may be. -/
theorem allocate_meets (sound : ids.Sound) :
    Meets allocate ids
      (fun id next => next.Sound ∧ id ∉ ids.live ∧ next.live = id :: ids.live ∧
        next.capacity = ids.capacity)
      (fun stop next => stop = .refused (.sequenceIdsExhausted ids.capacity) ∧ next = ids ∧
        ids.capacity ≤ ids.live.length) := by
  refine (allocate_hands ids).mono ?_ (fun _ _ => id)
  rintro id _ ⟨room, ⟨free, recycled, rfl⟩ | ⟨none, rfl, rfl⟩⟩
  · have cover := sound.cover
    have apart := (List.nodup_append.mp sound.nodup).2.2
    rw [recycled] at cover apart
    refine ⟨⟨?_, sound.bounded⟩, fun live => ?_, rfl, rfl⟩
    · exact List.perm_middle.symm.trans cover
    · exact apart id live id List.mem_cons_self rfl
  · have length := sound.length_add
    rw [none, List.length_nil, Nat.add_zero] at length
    refine ⟨⟨?_, ?_⟩, fun live => ?_, rfl, rfl⟩
    · show (ids.fresh :: (ids.live ++ ids.free)).Perm (List.range (ids.fresh + 1))
      rw [List.range_succ]
      exact (sound.cover.cons _).trans (List.perm_append_singleton _ _).symm
    · exact length ▸ room
    · exact Nat.lt_irrefl _ (sound.lt_fresh (List.mem_append_left _ live))

/-- **Taking an id back.** -/
theorem recycle_meets (sound : ids.Sound) (id : SequenceId) :
    Meets (recycle id) ids
      (fun _ next => next.Sound ∧ id ∈ ids.live ∧ next.live = ids.live.erase id ∧
        next.capacity = ids.capacity)
      (fun stop next => stop = .refused (.sequenceIdNotLive id) ∧ next = ids ∧ id ∉ ids.live) := by
  refine (recycle_takes ids id).mono ?_ (fun _ _ stopped => stopped)
  rintro _ _ ⟨live, rfl⟩
  refine ⟨⟨?_, sound.bounded⟩, live, rfl, rfl⟩
  show (ids.live.erase id ++ id :: ids.free).Perm (List.range ids.fresh)
  have back : (id :: (ids.live.erase id ++ ids.free)).Perm (ids.live ++ ids.free) :=
    ((List.perm_cons_erase live).append_right ids.free).symm
  exact List.perm_middle.trans (back.trans sound.cover)

end ContinuousBatching.SequenceIds
