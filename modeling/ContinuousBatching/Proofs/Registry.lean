/-
**Registries up to order.**

What is added up or collected over all entries of a registry does not depend on their order. An
entry can be taken out and looked at apart from the others:

* `Registry.values_perm`: the values are the value of a key and those of the other keys;
* `Registry.values_insert_perm`: after an insertion they are the new value and those of the other
  keys;
* `Registry.mem_values_iff`: the values are what look-ups find;
* `Registry.sum_values`: a sum over the values is one over the keys;
* `Registry.sum_values_eq`, `Registry.sum_values_congr`: so it depends on what look-ups find
  only;
* `Registry.sum_values_erase`, `Registry.sum_values_insert`, `Registry.sum_values_replace`: it
  loses a summand, gains one, or stays the same.
-/

import ContinuousBatching.Proofs.Sums
import ContinuousBatching.Registry

namespace ContinuousBatching.Registry

variable {κ ν : Type}

theorem nodup_entries (r : Registry κ ν) : r.entries.Nodup :=
  List.Pairwise.of_map Prod.fst (fun _ _ differ same => differ (congrArg Prod.fst same))
    r.keys_nodup

theorem length_keys (r : Registry κ ν) : r.keys.length = r.size := List.length_map ..

variable [DecidableEq κ]

theorem mem_values_iff {r : Registry κ ν} {value : ν} :
    value ∈ r.values ↔ ∃ key, r.get? key = some value := by
  simp only [get?_eq_some_iff, values, List.mem_map, Prod.exists, exists_eq_right]

/-- A sum over the values is one over the keys, of what is found there. -/
theorem sum_values (r : Registry κ ν) (f : ν → Nat) :
    (r.values.map f).sum = (r.keys.map fun key => ((r.get? key).map f).getD 0).sum := by
  rw [values, keys, List.map_map, List.map_map]
  refine sum_map_congr fun entry member => ?_
  have found : r.get? entry.1 = some entry.2 := get?_eq_some_iff.mpr member
  simp only [Function.comp_apply, found, Option.map_some, Option.getD_some]

/-- A sum over the values depends on what is found only, where nothing counts as zero. -/
theorem sum_values_eq {r r' : Registry κ ν} {f : ν → Nat}
    (same : ∀ key, ((r.get? key).map f).getD 0 = ((r'.get? key).map f).getD 0) :
    (r.values.map f).sum = (r'.values.map f).sum := by
  let found := fun (s : Registry κ ν) (key : κ) => ((s.get? key).map f).getD 0
  -- the summands that count are under the same keys on both sides
  have counting : ∀ s : Registry κ ν,
      (s.values.map f).sum = ((s.keys.filter (found s · ≠ 0)).map (found s)).sum := by
    intro s
    rw [sum_values, sum_filter]
    refine sum_map_congr fun key _ => ?_
    by_cases zero : found s key = 0
    · simp [found, zero]
    · simp [found, zero]
  have known : ∀ (s : Registry κ ν) (key : κ), found s key ≠ 0 → key ∈ s.keys := by
    intro s key counts
    by_contra absent
    rw [← get?_eq_none_iff] at absent
    exact counts (by simp [found, absent])
  have keys : (r.keys.filter (found r · ≠ 0)).Perm (r'.keys.filter (found r' · ≠ 0)) := by
    refine (List.perm_ext_iff_of_nodup (r.nodup_keys.filter _) (r'.nodup_keys.filter _)).mpr
      fun key => ?_
    have counts : found r key = found r' key := same key
    simp only [List.mem_filter, decide_eq_true_eq]
    rw [and_iff_right_of_imp (known r key), and_iff_right_of_imp (known r' key), counts]
  rw [counting, counting, (keys.map _).sum_nat]
  exact sum_map_congr fun key _ => same key

/-- A sum over the values depends on what is found only. -/
theorem sum_values_congr {r r' : Registry κ ν} {f : ν → Nat}
    (same : ∀ key, (r.get? key).map f = (r'.get? key).map f) :
    (r.values.map f).sum = (r'.values.map f).sum :=
  sum_values_eq fun key => congrArg (Option.getD · 0) (same key)

/-- The entries are the one of a key and the others. -/
theorem entries_perm {r : Registry κ ν} {key : κ} {value : ν} (found : r.get? key = some value) :
    r.entries.Perm ((key, value) :: (r.erase key).entries) := by
  have apart : (key, value) ∉ (r.erase key).entries := by simp [erase]
  refine (List.perm_ext_iff_of_nodup r.nodup_entries
    (List.nodup_cons.mpr ⟨apart, (r.erase key).nodup_entries⟩)).mpr fun entry => ?_
  obtain ⟨other, held⟩ := entry
  rw [List.mem_cons, ← get?_eq_some_iff, ← get?_eq_some_iff, get?_erase, Prod.mk.injEq]
  by_cases same : other = key
  · subst same
    simp [found, eq_comm]
  · simp [same]

theorem erase_of_notMem {r : Registry κ ν} {key : κ} (absent : key ∉ r.keys) : r.erase key = r := by
  refine ext (List.filter_eq_self.mpr fun entry member => ?_)
  have differ : entry.1 ≠ key := by
    rintro rfl
    exact absent (List.mem_map_of_mem member)
  simpa using differ

theorem erase_insert (r : Registry κ ν) (key : κ) (value : ν) :
    ((r.insert key value).erase key).entries.Perm (r.erase key).entries := by
  refine (List.perm_ext_iff_of_nodup (nodup_entries _) (nodup_entries _)).mpr fun entry => ?_
  obtain ⟨other, held⟩ := entry
  rw [← get?_eq_some_iff, ← get?_eq_some_iff, get?_erase, get?_erase, get?_insert]
  split <;> rfl

/-- The values are the one of a key and those of the other keys. -/
theorem values_perm {r : Registry κ ν} {key : κ} {value : ν} (found : r.get? key = some value) :
    r.values.Perm (value :: (r.erase key).values) :=
  (entries_perm found).map Prod.snd

/-- After an insertion the values are the new one and those of the other keys. -/
theorem values_insert_perm (r : Registry κ ν) (key : κ) (value : ν) :
    (r.insert key value).values.Perm (value :: (r.erase key).values) := by
  have found : (r.insert key value).get? key = some value := by rw [get?_insert, if_pos rfl]
  exact (values_perm found).trans (((erase_insert r key value).map Prod.snd).cons value)

/-- A sum over the values has a summand for a key, and the others are left without it. -/
theorem sum_values_erase {r : Registry κ ν} {key : κ} {value : ν}
    (found : r.get? key = some value) (f : ν → Nat) :
    (r.values.map f).sum = f value + ((r.erase key).values.map f).sum :=
  ((values_perm found).map f).sum_nat

/-- A sum over the values gains a summand with a new key. -/
theorem sum_values_insert {r : Registry κ ν} {key : κ} (absent : key ∉ r.keys) (value : ν)
    (f : ν → Nat) :
    ((r.insert key value).values.map f).sum = f value + (r.values.map f).sum := by
  rw [((values_insert_perm r key value).map f).sum_nat, erase_of_notMem absent, List.map_cons,
    List.sum_cons]

/-- A sum over the values stays the same when a value is replaced by one that counts the same. -/
theorem sum_values_replace {r : Registry κ ν} {key : κ} {old new : ν}
    (found : r.get? key = some old) {f : ν → Nat} (same : f new = f old) :
    ((r.insert key new).values.map f).sum = (r.values.map f).sum := by
  rw [((values_insert_perm r key new).map f).sum_nat, sum_values_erase found, List.map_cons,
    List.sum_cons, same]

theorem mem_keys_insert {r : Registry κ ν} {key other : κ} {value : ν} :
    other ∈ (r.insert key value).keys ↔ other = key ∨ other ∈ r.keys := by
  rw [keys_insert]
  by_cases present : key ∈ r.keys
  · rw [if_pos present]
    constructor
    · exact Or.inr
    · rintro (rfl | member)
      · exact present
      · exact member
  · rw [if_neg present, List.mem_append, List.mem_singleton, or_comm]

theorem mem_keys_erase {r : Registry κ ν} {key other : κ} :
    other ∈ (r.erase key).keys ↔ other ≠ key ∧ other ∈ r.keys := by
  rw [keys_erase, List.mem_filter, decide_eq_true_iff, and_comm]

/-- Replacing a value keeps the keys. -/
theorem keys_insert_of_mem {r : Registry κ ν} {key : κ} (present : key ∈ r.keys) (value : ν) :
    (r.insert key value).keys = r.keys := by
  rw [keys_insert, if_pos present]

/-- Of two values given to a key the second one counts. -/
theorem insert_insert (r : Registry κ ν) (key : κ) (first second : ν) :
    (r.insert key first).insert key second = r.insert key second := by
  by_cases present : key ∈ r.keys
  · have still : key ∈ (r.insert key first).keys := mem_keys_insert.mpr (Or.inl rfl)
    rw [insert, dif_pos still, insert, dif_pos present, insert, dif_pos present]
    refine ext ?_
    simp only [modify, List.map_map]
    refine List.map_congr_left fun entry _ => ?_
    by_cases here : entry.1 = key
    · simp [here]
    · simp [here]
  · have new : key ∈ (r.insert key first).keys := mem_keys_insert.mpr (Or.inl rfl)
    have others : r.entries.map (fun entry => if entry.1 = key then (entry.1, second) else entry) =
        r.entries := by
      have same : r.entries.map (fun entry => if entry.1 = key then (entry.1, second) else entry) =
          r.entries.map id := by
        refine List.map_congr_left fun entry member => ?_
        have differ : entry.1 ≠ key := fun here => present (here ▸ List.mem_map_of_mem member)
        rw [if_neg differ]
        rfl
      rw [same, List.map_id]
    rw [insert, dif_pos new, insert, dif_neg present, insert, dif_neg present]
    refine ext ?_
    simp only [modify, List.map_append, List.map_cons, List.map_nil, others, if_true]

end ContinuousBatching.Registry
