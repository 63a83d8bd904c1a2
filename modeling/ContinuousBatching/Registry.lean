/-
**Finite maps in the order of insertion.**

A `Registry κ ν` lists its entries oldest first and holds no key twice; replacing a value keeps its
place. Everything a caller can see goes through `get?` and `keys`:

* `get?_insert`, `get?_erase`, `get?_modify`: what a look-up finds after each operation;
* `keys_insert`, `keys_erase`, `keys_modify`: which keys are present, in which order;
* `mem_keys_iff`: a key is present exactly if the look-up finds a value;
* `get?_eq_some_iff`: a look-up finds exactly the entries.
-/

namespace ContinuousBatching

/-- A finite map, listed in the order in which its keys were first inserted. -/
structure Registry (κ ν : Type) where
  entries : List (κ × ν)
  keys_nodup : (entries.map Prod.fst).Nodup

namespace Registry

variable {κ ν : Type}

/-- The registry without entries. -/
def empty : Registry κ ν := ⟨[], List.nodup_nil⟩

instance : Inhabited (Registry κ ν) := ⟨empty⟩

/-- The keys, oldest first. -/
def keys (r : Registry κ ν) : List κ := r.entries.map Prod.fst

/-- The values, in the order of their keys. -/
def values (r : Registry κ ν) : List ν := r.entries.map Prod.snd

/-- The number of entries. -/
def size (r : Registry κ ν) : Nat := r.entries.length

/-- Whether there is no entry. -/
def isEmpty (r : Registry κ ν) : Bool := r.entries.isEmpty

@[ext]
theorem ext {r s : Registry κ ν} (same : r.entries = s.entries) : r = s := by
  cases r
  cases s
  cases same
  rfl

@[simp]
theorem keys_empty : (empty : Registry κ ν).keys = [] := rfl

theorem nodup_keys (r : Registry κ ν) : r.keys.Nodup := r.keys_nodup

variable [DecidableEq κ]

/-- The value of a key. -/
def get? (r : Registry κ ν) (key : κ) : Option ν :=
  (r.entries.find? fun entry => entry.1 = key).map Prod.snd

/-- Whether a key is present. -/
def contains (r : Registry κ ν) (key : κ) : Bool := decide (key ∈ r.keys)

/-- Changes the value of a key, if it is present. -/
def modify (r : Registry κ ν) (key : κ) (change : ν → ν) : Registry κ ν where
  entries := r.entries.map fun entry =>
    if entry.1 = key then (entry.1, change entry.2) else entry
  keys_nodup := by
    have same : (r.entries.map fun entry =>
        if entry.1 = key then (entry.1, change entry.2) else entry).map Prod.fst =
        r.entries.map Prod.fst := by
      rw [List.map_map]
      refine List.map_congr_left fun entry _ => ?_
      simp only [Function.comp_apply]
      split <;> rfl
    rw [same]
    exact r.keys_nodup

/-- Gives a key a value: in its place if it is present, at the end otherwise. -/
def insert (r : Registry κ ν) (key : κ) (value : ν) : Registry κ ν :=
  if fresh : key ∈ r.keys then r.modify key fun _ => value
  else
    { entries := r.entries ++ [(key, value)]
      keys_nodup := by
        rw [List.map_append, List.nodup_append]
        refine ⟨r.keys_nodup, by simp, fun a present b new => ?_⟩
        simp only [List.map_cons, List.map_nil, List.mem_singleton] at new
        rintro rfl
        exact fresh (new ▸ present) }

/-- Removes a key. -/
def erase (r : Registry κ ν) (key : κ) : Registry κ ν where
  entries := r.entries.filter fun entry => entry.1 ≠ key
  keys_nodup := (List.filter_sublist.map Prod.fst).nodup r.keys_nodup

/-! ### Keys -/

@[simp]
theorem contains_iff {r : Registry κ ν} {key : κ} : r.contains key = true ↔ key ∈ r.keys := by
  simp [contains]

@[simp]
theorem keys_modify (r : Registry κ ν) (key : κ) (change : ν → ν) :
    (r.modify key change).keys = r.keys := by
  unfold keys modify
  rw [List.map_map]
  refine List.map_congr_left fun entry _ => ?_
  simp only [Function.comp_apply]
  split <;> rfl

theorem keys_insert (r : Registry κ ν) (key : κ) (value : ν) :
    (r.insert key value).keys = if key ∈ r.keys then r.keys else r.keys ++ [key] := by
  unfold insert
  split
  · rw [keys_modify]
  · simp [keys]

@[simp]
theorem keys_erase (r : Registry κ ν) (key : κ) :
    (r.erase key).keys = r.keys.filter fun other => other ≠ key := by
  simp only [keys, erase, List.filter_map]
  rfl

/-! ### Look-ups -/

@[simp]
theorem get?_empty (key : κ) : (empty : Registry κ ν).get? key = none := rfl

theorem get?_eq_some_iff {r : Registry κ ν} {key : κ} {value : ν} :
    r.get? key = some value ↔ (key, value) ∈ r.entries := by
  obtain ⟨entries, nodup⟩ := r
  simp only [get?, Option.map_eq_some_iff]
  induction entries with
  | nil => simp
  | cons entry rest ih =>
    rw [List.map_cons, List.nodup_cons] at nodup
    by_cases here : entry.1 = key
    · constructor
      · rintro ⟨found, hit, rfl⟩
        rw [List.find?_cons_of_pos (by simpa using here)] at hit
        cases hit
        cases here
        exact List.mem_cons_self
      · intro member
        rcases List.mem_cons.mp member with rfl | later
        · exact ⟨_, List.find?_cons_of_pos (by simp), rfl⟩
        · exact absurd (List.mem_map.mpr ⟨_, later, here.symm⟩) nodup.1
    · rw [List.find?_cons_of_neg (by simpa using here), ih nodup.2, List.mem_cons]
      constructor
      · exact Or.inr
      · rintro (rfl | later)
        · exact absurd rfl here
        · exact later

theorem mem_keys_iff {r : Registry κ ν} {key : κ} :
    key ∈ r.keys ↔ ∃ value, r.get? key = some value := by
  simp only [get?_eq_some_iff, keys, List.mem_map, Prod.exists, exists_and_right, exists_eq_right]

theorem get?_eq_none_iff {r : Registry κ ν} {key : κ} : r.get? key = none ↔ key ∉ r.keys := by
  rw [mem_keys_iff, Option.eq_none_iff_forall_ne_some]
  simp

theorem get?_modify (r : Registry κ ν) (key other : κ) (change : ν → ν) :
    (r.modify key change).get? other =
      if other = key then (r.get? key).map change else r.get? other := by
  obtain ⟨entries, nodup⟩ := r
  simp only [get?, modify]
  clear nodup
  induction entries with
  | nil => simp
  | cons entry rest ih =>
    rw [List.map_cons, List.find?_cons, List.find?_cons, List.find?_cons]
    by_cases hit : entry.1 = key
    · subst hit
      by_cases same : other = entry.1
      · simp [same]
      · have differ : ¬ entry.1 = other := fun back => same back.symm
        rw [if_neg same] at ih
        simp only [if_true, differ, decide_false, same, if_false]
        exact ih
    · by_cases here : entry.1 = other
      · subst here
        simp [hit]
      · simp only [hit, here, decide_false, if_false]
        exact ih

theorem get?_insert (r : Registry κ ν) (key other : κ) (value : ν) :
    (r.insert key value).get? other = if other = key then some value else r.get? other := by
  unfold insert
  split
  · rename_i present
    rw [get?_modify]
    split
    · obtain ⟨old, found⟩ := mem_keys_iff.mp present
      rw [found]
      rfl
    · rfl
  · rename_i fresh
    refine Option.ext fun found => ?_
    rw [get?_eq_some_iff]
    by_cases same : other = key
    · subst same
      have missing : (other, found) ∉ r.entries := fun member =>
        fresh (List.mem_map.mpr ⟨_, member, rfl⟩)
      simp [missing, eq_comm]
    · rw [if_neg same, get?_eq_some_iff]
      simp [same]

/-- A value written where it is already changes nothing. -/
theorem insert_of_found {r : Registry κ ν} {key : κ} {value : ν}
    (found : r.get? key = some value) : r.insert key value = r := by
  have present : key ∈ r.keys := mem_keys_iff.mpr ⟨value, found⟩
  have same : (r.entries.map fun entry =>
      if entry.1 = key then (entry.1, value) else entry) = r.entries := by
    refine (List.map_congr_left fun entry member => ?_).trans (List.map_id _)
    split
    · rename_i here
      have there : r.get? key = some entry.2 := by
        rw [← here]
        exact get?_eq_some_iff.mpr member
      cases found.symm.trans there
      rfl
    · rfl
  unfold insert
  rw [dif_pos present]
  unfold modify
  simp only [same]

theorem get?_erase (r : Registry κ ν) (key other : κ) :
    (r.erase key).get? other = if other = key then none else r.get? other := by
  split
  · rename_i same
    subst same
    rw [get?_eq_none_iff, keys_erase]
    simp
  · rename_i differ
    refine Option.ext fun value => ?_
    rw [get?_eq_some_iff, get?_eq_some_iff]
    simp [erase, differ]

end Registry

end ContinuousBatching
