/-
**Lists without repetitions.**

A list of ids may name an id more than once, and what becomes of the id is decided where it stands
first. The list in which only the first mention of each id is left is what counts then:

* `nodup_eraseDups`, `eraseDups_of_nodup`: no repetition is left, and nothing else is taken away;
* `eraseDups_filter`, `eraseDups_perm`: how that goes together with a test, and with another order.
-/

import Mathlib.Data.List.Perm.Subperm

namespace ContinuousBatching

variable {α β : Type} [BEq α] [LawfulBEq α]

/-- A list from which repetitions were erased has none. -/
theorem nodup_eraseDups : ∀ list : List α, list.eraseDups.Nodup
  | [] => List.nodup_nil
  | a :: rest => by
      rw [List.eraseDups_cons]
      refine List.nodup_cons.mpr ⟨fun again => ?_, nodup_eraseDups _⟩
      rw [List.mem_eraseDups, List.mem_filter] at again
      simp at again
termination_by list => list.length
decreasing_by
  rw [List.length_cons]
  exact Nat.lt_succ_of_le (List.length_filter_le ..)

/-- Repetitions are erased before or after a test. -/
theorem eraseDups_filter (test : α → Bool) : ∀ list : List α,
    (list.filter test).eraseDups = list.eraseDups.filter test
  | [] => rfl
  | a :: rest => by
      have later := eraseDups_filter test (rest.filter fun b => !b == a)
      have swap : (rest.filter test).filter (fun b => !b == a) =
          (rest.filter fun b => !b == a).filter test := by
        rw [List.filter_comm]
      rw [List.filter_cons, List.eraseDups_cons, List.filter_cons, ← later, ← swap]
      by_cases passes : test a = true
      · rw [if_pos passes, if_pos passes, List.eraseDups_cons]
      · rw [if_neg passes, if_neg passes]
        have kept : (rest.filter test).filter (fun b => !b == a) = rest.filter test := by
          refine List.filter_eq_self.mpr fun b member => ?_
          have differ : b ≠ a := fun same => passes (same ▸ (List.mem_filter.mp member).2)
          simpa using differ
        rw [kept]
termination_by list => list.length
decreasing_by
  rw [List.length_cons]
  exact Nat.lt_succ_of_le (List.length_filter_le ..)

/-- An element that is mapped to nothing may be left out. -/
theorem flatMap_filter_ne {f : α → List β} {a : α} (none : f a = []) (list : List α) :
    (list.filter fun b => !b == a).flatMap f = list.flatMap f := by
  induction list with
  | nil => rfl
  | cons b rest ih =>
      rw [List.filter_cons, List.flatMap_cons, ← ih]
      by_cases same : b = a
      · simp [same, none]
      · simp [same]

theorem eraseDups_perm {first second : List α} (perm : first.Perm second) :
    first.eraseDups.Perm second.eraseDups := by
  refine (List.perm_ext_iff_of_nodup (nodup_eraseDups _) (nodup_eraseDups _)).mpr fun a => ?_
  rw [List.mem_eraseDups, List.mem_eraseDups, perm.mem_iff]

theorem eraseDups_of_nodup {list : List α} (nodup : list.Nodup) : list.eraseDups = list := by
  induction list with
  | nil => rfl
  | cons a rest ih =>
      obtain ⟨absent, nodup⟩ := List.nodup_cons.mp nodup
      have kept : (rest.filter fun b => !b == a) = rest := by
        refine List.filter_eq_self.mpr fun b member => ?_
        have differ : b ≠ a := fun same => absent (same ▸ member)
        simpa using differ
      rw [List.eraseDups_cons, kept, ih nodup]

end ContinuousBatching
