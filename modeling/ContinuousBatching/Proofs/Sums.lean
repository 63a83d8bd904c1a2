/-
**Sums of counts and quotients rounded up.**

Capacity arguments add lengths up over queues and divide them into blocks. Sums and quotients are
the library's (`List.sum`, `⌈/⌉`); here is what the arguments need besides:

* `sum_map_le_of_subset`: a sum over some of the elements, none of them taken twice, is no larger;
* `sum_filter`, `sum_filterMap`: sums over what passes a test, and over what elements are mapped to;
* `Count.blocksFor_eq_ok_iff`: the number of blocks for a number of positions;
* `Count.ceilDiv_le_self`, `Count.ceilDiv_succ`: how the number of blocks grows with the number of
  positions: by one block exactly where all blocks before are full.
-/

import ContinuousBatching.Count
import Mathlib.Algebra.Order.BigOperators.Group.List
import Mathlib.Algebra.Order.Floor.Div
import Mathlib.Data.List.Perm.Subperm
import Mathlib.GroupTheory.GroupAction.Ring

namespace ContinuousBatching

variable {α : Type}

/-! ### Sums -/

theorem sum_map_congr {f g : α → Nat} {list : List α} (same : ∀ a ∈ list, f a = g a) :
    (list.map f).sum = (list.map g).sum :=
  congrArg List.sum (List.map_congr_left same)

/-- A sum over the elements that pass a test. -/
theorem sum_filter (test : α → Bool) (f : α → Nat) (list : List α) :
    ((list.filter test).map f).sum = (list.map fun a => if test a then f a else 0).sum := by
  rw [List.sum_map_ite]
  simp

theorem le_sum_map (f : α → Nat) {list : List α} {a : α} (member : a ∈ list) :
    f a ≤ (list.map f).sum :=
  List.le_sum_of_mem (List.mem_map_of_mem member)

/-- A sum over some of the elements, none of them taken twice, is no larger. -/
theorem sum_map_le_of_subset (f : α → Nat) {some all : List α} (nodup : some.Nodup)
    (subset : some ⊆ all) : (some.map f).sum ≤ (all.map f).sum := by
  classical
  obtain ⟨first, perm, sublist⟩ := List.subperm_of_subset nodup subset
  rw [← (perm.map f).sum_nat]
  exact (sublist.map f).sum_le_sum fun _ _ => Nat.zero_le _

/-- A sum over what elements are mapped to is a sum over the elements. -/
theorem sum_filterMap {β : Type} {f : α → Option β} {g : β → Nat} {h : α → Nat} {list : List α}
    (same : ∀ a ∈ list, ∃ b, f a = some b ∧ g b = h a) :
    ((list.filterMap f).map g).sum = (list.map h).sum := by
  induction list with
  | nil => rfl
  | cons a rest ih =>
      obtain ⟨b, found, equal⟩ := same a List.mem_cons_self
      have later := ih fun c member => same c (List.mem_cons_of_mem a member)
      rw [List.filterMap_cons_some found]
      simp only [List.map_cons, List.sum_cons, equal, later]

/-! ### Quotients rounded up -/

namespace Count

theorem blocksFor_eq_ok_iff {length size n : Nat} :
    blocksFor length size = .ok n ↔ size ≠ 0 ∧ n = length ⌈/⌉ size := by
  unfold blocksFor
  rw [Nat.ceilDiv_eq_add_pred_div]
  split
  · rename_i zero
    simp [zero]
  · rename_i positive
    simp [positive, eq_comm]

theorem ceilDiv_mono {first second : Nat} (le : first ≤ second) (size : Nat) :
    first ⌈/⌉ size ≤ second ⌈/⌉ size := by
  rcases Nat.eq_zero_or_pos size with rfl | positive
  · simp
  · exact (gc_mul_ceilDiv positive).monotone_l le

theorem ceilDiv_le_self (length size : Nat) : length ⌈/⌉ size ≤ length := by
  rcases Nat.eq_zero_or_pos size with rfl | positive
  · simp
  · exact (ceilDiv_le_iff_le_mul positive).mpr (Nat.le_mul_of_pos_left length positive)

/-- One position more takes a block more exactly if all blocks before are full. -/
theorem ceilDiv_succ {length size : Nat} (positive : 0 < size) :
    (length + 1) ⌈/⌉ size = length ⌈/⌉ size + if length % size = 0 then 1 else 0 := by
  rw [Nat.ceilDiv_eq_add_pred_div, Nat.ceilDiv_eq_add_pred_div]
  have split := Nat.div_add_mod length size
  have below := Nat.mod_lt length positive
  have first : (length + 1 + size - 1) / size = length / size + 1 := by
    rw [show length + 1 + size - 1 = length + size from by omega,
      Nat.add_div_right length positive]
  rw [first]
  split
  · rename_i full
    rw [show length + size - 1 = size - 1 + size * (length / size) from by omega,
      Nat.add_mul_div_left _ _ positive, Nat.div_eq_of_lt (show size - 1 < size by omega)]
    omega
  · rename_i partly
    rw [show length + size - 1 = length % size - 1 + size * (length / size + 1) from by
        rw [Nat.mul_succ]; omega,
      Nat.add_mul_div_left _ _ positive,
      Nat.div_eq_of_lt (show length % size - 1 < size by omega)]
    omega

theorem ceilDiv_pos {length size : Nat} (positive : 0 < size) (nonempty : 0 < length) :
    0 < length ⌈/⌉ size := by
  by_contra none
  have bound := (ceilDiv_le_iff_le_mul (c := 0) positive).mp (Nat.le_of_not_lt none)
  omega

end Count

end ContinuousBatching
