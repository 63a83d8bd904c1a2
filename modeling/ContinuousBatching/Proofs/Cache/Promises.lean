/-
**The capacity checks neither promise too much nor refuse what would do.**

A check adds up what every sequence lacks before any of them takes a block. The operations that it
stands for take their blocks one after the other from what is left of the free ones. Both come to
the same, in whatever order the operations are carried out, because what one sequence lacks is not
changed by another that is fed:

* `PagedCache.lackOf`: the blocks that chunks take for a sequence, which may still have to be added;
* `PagedCache.Plan`: operations that add new sequences and feed sequences that are there by then,
  none of them twice;
* `PagedCache.Plan.carriesOut_iff`: such operations are all carried out exactly if the blocks that
  they take together are free;
* `PagedCache.ExactChecks`: the answers of `canFit`, `canGrow` and `canDecode` tell what can be
  carried out;
* `PagedCache.checks_exact_after`: so they do after every history.
-/

import ContinuousBatching.Proofs.Cache.Capacity
import ContinuousBatching.Proofs.Cache.Histories

namespace ContinuousBatching.PagedCache

/-- A sequence and what it is fed. -/
structure Feed where
  id : SequenceId
  chunks : List Chunk
  deriving DecidableEq, Repr

/-- Adding a sequence and feeding it. -/
def Feed.operations (feed : Feed) : List Operation := [.add feed.id, .forward feed.id feed.chunks]

namespace Operation

/-- The sequence that an operation adds, if it adds one. -/
def added? : Operation → Option SequenceId
  | .add id => some id
  | .remove _ => none
  | .forward _ _ => none

/-- The sequence that an operation feeds, if it feeds one, and with what. -/
def fed? : Operation → Option Feed
  | .add _ => none
  | .remove _ => none
  | .forward id chunks => some ⟨id, chunks⟩

end Operation

/-- All of these operations are carried out, one after the other. -/
def CarriesOut (cache : PagedCache) (operations : List Operation) : Prop :=
  ∃ last, operations.forM Operation.run cache = .ok () last

/-- The number of positions of a sequence; none if it is not there. -/
def lengthOf (cache : PagedCache) (id : SequenceId) : Nat :=
  ((cache.sequences.get? id).map fun sequence => sequence.table.length).getD 0

/-- The number of blocks that chunks take for a sequence, beyond the blocks that it has. -/
def lackOf (cache : PagedCache) (feed : Feed) : Nat :=
  (cache.lengthOf feed.id + positions feed.chunks) ⌈/⌉ cache.pool.blockSize -
    cache.lengthOf feed.id ⌈/⌉ cache.pool.blockSize

/-- Operations that add new sequences and feed sequences that are there by then, none of them twice
and none beyond 64 bits. -/
structure Plan (cache : PagedCache) (operations : List Operation) : Prop where
  kept : ∀ id, .remove id ∉ operations
  fresh : ∀ id ∈ operations.filterMap Operation.added?, cache.sequences.get? id = none
  added : (operations.filterMap Operation.added?).Nodup
  fed : ((operations.filterMap Operation.fed?).map Feed.id).Nodup
  ready : ∀ id chunks, .forward id chunks ∈ operations →
    (∃ sequence, cache.sequences.get? id = some sequence) ∨
      [.add id, .forward id chunks].Sublist operations
  countable : ∀ id chunks, .forward id chunks ∈ operations →
    cache.lengthOf id + positions chunks < Count.limit

variable {cache : PagedCache} {id other : SequenceId} {sequence : PagedSequence}
  {chunks : List Chunk} {operation : Operation} {rest operations : List Operation}

/-! ### What a sequence lacks -/

theorem lengthOf_of_found (found : cache.sequences.get? id = some sequence) :
    cache.lengthOf id = sequence.table.length := by
  simp [lengthOf, found]

theorem lengthOf_of_absent (absent : cache.sequences.get? id = none) : cache.lengthOf id = 0 := by
  simp [lengthOf, absent]

/-- A new sequence has no position, like one that is not there. -/
theorem lengthOf_registered (fresh : cache.sequences.get? id = none) (other : SequenceId) :
    (cache.registered id).lengthOf other = cache.lengthOf other := by
  unfold lengthOf
  rw [get?_registered]
  split
  · rename_i same
    rw [same, fresh]
    rfl
  · rfl

theorem lengthOf_written (differ : other ≠ id) :
    (cache.written id sequence chunks).lengthOf other = cache.lengthOf other := by
  unfold lengthOf
  rw [get?_written, if_neg differ]

theorem lackOf_of_found (sound : cache.Sound) (found : cache.sequences.get? id = some sequence) :
    cache.lackOf ⟨id, chunks⟩ = sequence.lacks chunks := by
  obtain ⟨size, length⟩ := sound.sized id sequence found
  simp [lackOf, lengthOf_of_found found, PagedSequence.lacks, BlockTable.shortfall, size, length]

theorem lackOf_of_absent (absent : cache.sequences.get? id = none) :
    cache.lackOf ⟨id, chunks⟩ = positions chunks ⌈/⌉ cache.pool.blockSize := by
  simp [lackOf, lengthOf_of_absent absent]

/-- Adding a sequence changes nothing about what is lacking, -/
theorem lackOf_registered (fresh : cache.sequences.get? id = none) (feed : Feed) :
    (cache.registered id).lackOf feed = cache.lackOf feed := by
  unfold lackOf
  rw [lengthOf_registered fresh]
  rfl

/-- nor does feeding a sequence change what another one lacks. -/
theorem lackOf_written {feed : Feed} (differ : feed.id ≠ id) :
    (cache.written id sequence chunks).lackOf feed = cache.lackOf feed := by
  unfold lackOf
  rw [lengthOf_written differ]
  rfl

/-! ### One operation of a plan -/

theorem carriesOut_nil (cache : PagedCache) : cache.CarriesOut [] := ⟨cache, rfl⟩

theorem carriesOut_cons : cache.CarriesOut (operation :: rest) ↔
    ∃ next, operation.run cache = .ok () next ∧ next.CarriesOut rest := by
  have unfolded : (operation :: rest).forM Operation.run cache =
      EStateM.bind operation.run (fun _ => rest.forM Operation.run) cache := rfl
  unfold CarriesOut
  rw [unfolded, EStateM.bind]
  cases operation.run cache with
  | ok _ next => simp
  | error stop next => simp

theorem carriesOut_of_ok {next : PagedCache} (ended : operation.run cache = .ok () next) :
    cache.CarriesOut (operation :: rest) ↔ next.CarriesOut rest := by
  simp [carriesOut_cons, ended]

theorem not_carriesOut_of_error {next : PagedCache} {stop : Stop}
    (ended : operation.run cache = .error stop next) :
    ¬ cache.CarriesOut (operation :: rest) := by
  simp [carriesOut_cons, ended]

/-- A new sequence is added. -/
theorem carriesOut_add (fresh : cache.sequences.get? id = none) :
    cache.CarriesOut (.add id :: rest) ↔ (cache.registered id).CarriesOut rest := by
  apply carriesOut_of_ok
  rcases (addSequence_meets cache id).ends with ⟨_, next, run, _, rfl⟩ | ⟨_, _, _, _, _, present⟩
  · exact run
  · exact absurd present (Registry.get?_eq_none_iff.mp fresh)

/-- Feeding a sequence, as an operation. -/
theorem run_forward_meets (found : cache.sequences.get? id = some sequence) (chunks : List Chunk) :
    Meets (Operation.run (.forward id chunks)) cache
      (fun _ next => sequence.lacks chunks ≤ cache.pool.freeCount ∧
        next = cache.written id sequence chunks)
      (fun _ _ => cache.pool.freeCount < sequence.lacks chunks ∨
        Count.limit ≤ sequence.table.length + positions chunks ∨
        sequence.table.blockSize = 0) := by
  unfold Operation.run
  rw [meets_discard]
  refine (forward_meets found chunks).mono (fun _ _ fed => ⟨fed.1, fed.2.2⟩) ?_
  rintro _ _ (⟨_, _, short⟩ | ⟨_, large⟩ | ⟨_, zero⟩)
  · exact Or.inl short
  · exact Or.inr (Or.inl large)
  · exact Or.inr (Or.inr zero)

/-- A sequence that is not there is not fed. -/
theorem not_carriesOut_forward (absent : cache.sequences.get? id = none) :
    ¬ cache.CarriesOut (.forward id chunks :: rest) := by
  have stops : Operation.run (.forward id chunks) cache =
      .error (.refused (.sequenceNotFound id)) cache := by
    refine Meets.stop_eq ?_
    unfold Operation.run
    rw [meets_discard]
    unfold Meets
    rw [forward_of_absent absent]
    exact ⟨rfl, rfl⟩
  exact not_carriesOut_of_error stops

/-- A sequence that is there is fed if the blocks that it lacks are free. -/
theorem carriesOut_forward (sound : cache.Sound) (divided : 0 < cache.pool.blockSize)
    (found : cache.sequences.get? id = some sequence)
    (countable : cache.lengthOf id + positions chunks < Count.limit) :
    cache.CarriesOut (.forward id chunks :: rest) ↔
      cache.lackOf ⟨id, chunks⟩ ≤ cache.pool.freeCount ∧
        (cache.written id sequence chunks).CarriesOut rest := by
  rw [lackOf_of_found sound found]
  rw [lengthOf_of_found found] at countable
  rcases (run_forward_meets found chunks).ends with
    ⟨_, next, run, enough, rfl⟩ | ⟨_, _, run, short | large | zero⟩
  · rw [carriesOut_of_ok run, and_iff_right enough]
  · exact iff_of_false (not_carriesOut_of_error run) fun both => Nat.not_le_of_lt short both.1
  · exact absurd countable (Nat.not_lt_of_le large)
  · rw [(sound.sized id sequence found).1] at zero
    omega

/-! ### A plan -/

namespace Plan

/-- A pair in a row is either at the front or further on. -/
theorem ready_later (plan : cache.Plan (operation :: rest)) (later : .forward id chunks ∈ rest) :
    (∃ sequence, cache.sequences.get? id = some sequence) ∨ operation = .add id ∨
      [.add id, .forward id chunks].Sublist rest := by
  rcases plan.ready id chunks (List.mem_cons_of_mem _ later) with found | before
  · exact Or.inl found
  · cases before with
    | cons _ before => exact Or.inr (Or.inr before)
    | cons_cons _ _ => exact Or.inr (Or.inl rfl)

/-- After its first operation, which adds a sequence, a plan goes on. -/
theorem registered (plan : cache.Plan (.add id :: rest)) : (cache.registered id).Plan rest := by
  have fresh : cache.sequences.get? id = none := plan.fresh id List.mem_cons_self
  have apart : id ∉ rest.filterMap Operation.added? := (List.nodup_cons.mp plan.added).1
  refine ⟨fun other member => plan.kept other (List.mem_cons_of_mem _ member), ?_,
    (List.nodup_cons.mp plan.added).2, plan.fed, ?_, ?_⟩
  · intro other member
    have differ : other ≠ id := fun same => apart (same ▸ member)
    rw [get?_registered, if_neg differ]
    exact plan.fresh other (List.mem_cons_of_mem id member)
  · intro other chunks member
    rw [get?_registered]
    by_cases same : other = id
    · rw [if_pos same]
      exact Or.inl ⟨_, rfl⟩
    · rw [if_neg same]
      rcases plan.ready_later member with found | here | before
      · exact Or.inl found
      · exact absurd (Operation.add.inj here).symm same
      · exact Or.inr before
  · intro other chunks member
    rw [lengthOf_registered fresh]
    exact plan.countable other chunks (List.mem_cons_of_mem _ member)

/-- A sequence that a plan feeds later is not the one that it feeds first. -/
theorem fed_later (plan : cache.Plan (.forward id chunks :: rest)) {feed : Feed}
    (later : feed ∈ rest.filterMap Operation.fed?) : feed.id ≠ id := by
  intro same
  have apart : id ∉ (rest.filterMap Operation.fed?).map Feed.id := (List.nodup_cons.mp plan.fed).1
  exact apart (same ▸ List.mem_map_of_mem later)

theorem mem_fed (member : .forward id chunks ∈ operations) :
    ⟨id, chunks⟩ ∈ operations.filterMap Operation.fed? :=
  List.mem_filterMap.mpr ⟨_, member, rfl⟩

/-- The sequence that a plan feeds first is there. -/
theorem found_of_first (plan : cache.Plan (.forward id chunks :: rest)) :
    ∃ sequence, cache.sequences.get? id = some sequence := by
  rcases plan.ready id chunks List.mem_cons_self with found | before
  · exact found
  · have later : .forward id chunks ∈ rest := by
      cases before with
      | cons _ before => exact before.subset (by simp)
    exact absurd rfl (plan.fed_later (mem_fed later))

/-- After its first operation, which feeds a sequence, a plan goes on. -/
theorem written (plan : cache.Plan (.forward id chunks :: rest)) (sequence : PagedSequence) :
    (cache.written id sequence chunks).Plan rest := by
  refine ⟨fun other member => plan.kept other (List.mem_cons_of_mem _ member), ?_, plan.added,
    (List.nodup_cons.mp plan.fed).2, ?_, ?_⟩
  · intro other member
    obtain ⟨sequence, found⟩ := plan.found_of_first
    have fresh : cache.sequences.get? other = none := plan.fresh other member
    have differ : other ≠ id := by
      intro same
      rw [same, found] at fresh
      cases fresh
    rw [get?_written, if_neg differ]
    exact fresh
  · intro other fed member
    rw [get?_written, if_neg (plan.fed_later (mem_fed member))]
    rcases plan.ready_later member with found | here | before
    · exact Or.inl found
    · cases here
    · exact Or.inr before
  · intro other fed member
    rw [lengthOf_written (plan.fed_later (mem_fed member))]
    exact plan.countable other fed (List.mem_cons_of_mem _ member)

/-- **A plan is carried out** exactly if the blocks that it takes together are free. -/
theorem carriesOut_iff (sound : cache.Sound) (divided : 0 < cache.pool.blockSize)
    (plan : cache.Plan operations) :
    cache.CarriesOut operations ↔
      ((operations.filterMap Operation.fed?).map cache.lackOf).sum ≤ cache.pool.freeCount := by
  induction operations generalizing cache with
  | nil => exact iff_of_true (carriesOut_nil cache) (Nat.zero_le _)
  | cons operation rest ih =>
      cases operation with
      | add id =>
          have fresh : cache.sequences.get? id = none := plan.fresh id List.mem_cons_self
          rw [carriesOut_add fresh, ih (sound.registered fresh) divided plan.registered]
          rw [funext (lackOf_registered fresh)]
          rfl
      | remove id => exact absurd List.mem_cons_self (plan.kept id)
      | forward id chunks =>
          obtain ⟨sequence, found⟩ := plan.found_of_first
          rw [carriesOut_forward sound divided found (plan.countable id chunks List.mem_cons_self)]
          show _ ↔ cache.lackOf ⟨id, chunks⟩ +
            ((rest.filterMap Operation.fed?).map cache.lackOf).sum ≤ _
          by_cases enough : cache.lackOf ⟨id, chunks⟩ ≤ cache.pool.freeCount
          · rw [lackOf_of_found sound found] at enough ⊢
            have left : (cache.written id sequence chunks).pool.freeCount + _ = _ :=
              freeCount_written enough
            have others : ((rest.filterMap Operation.fed?).map
                (cache.written id sequence chunks).lackOf).sum =
                ((rest.filterMap Operation.fed?).map cache.lackOf).sum :=
              sum_map_congr fun feed member => lackOf_written (plan.fed_later member)
            rw [and_iff_right enough, ih (sound.written found enough) divided
              (plan.written sequence), others]
            omega
          · refine iff_of_false (fun both => enough both.1) ?_
            omega

end Plan

/-! ### What a check promises -/

/-- These sequences are new, and the operations add and feed them, in some order in which each of
them is added before it is fed. -/
structure Admits (cache : PagedCache) (feeds : List Feed) (operations : List Operation) : Prop where
  nodup : (feeds.map Feed.id).Nodup
  fresh : ∀ feed ∈ feeds, cache.sequences.get? feed.id = none
  all : operations.Perm (feeds.flatMap Feed.operations)
  before : ∀ feed ∈ feeds, feed.operations.Sublist operations

/-- **The answers of the checks are exact**, as long as the lengths and the number of blocks asked
for are counts. New sequences of some lengths fit if they can be added and fed in any order; a
sequence can grow if it can be fed; sequences can decode if all of them can be fed one position
more, in any order. -/
structure ExactChecks (cache : PagedCache) : Prop where
  fit : ∀ lengths : List Nat, (∀ length ∈ lengths, length < Count.limit) →
    (lengths.map fun length => length ⌈/⌉ cache.pool.blockSize).sum < Count.limit →
    ∃ answer, cache.canFit lengths = .ok answer ∧
      ∀ feeds operations, feeds.map (fun feed => positions feed.chunks) = lengths →
        cache.Admits feeds operations → (answer = true ↔ cache.CarriesOut operations)
  grow : ∀ (id : SequenceId) (additional : Nat), cache.lengthOf id + additional < Count.limit →
    ∃ answer, cache.canGrow id additional = .ok answer ∧
      ∀ chunks, positions chunks = additional →
        (answer = true ↔ cache.CarriesOut [.forward id chunks])
  decode : ∀ ids : List SequenceId, ids.Nodup → ids.length < Count.limit →
    (∀ id ∈ ids, cache.lengthOf id + 1 < Count.limit) →
    ∃ answer, cache.canDecode ids = .ok answer ∧
      ∀ (input : SequenceId → List Chunk) (order : List SequenceId),
        (∀ id ∈ ids, positions (input id) = 1) → order.Perm ids →
        (answer = true ↔ cache.CarriesOut (order.map fun id => .forward id (input id)))

/-- The sequences that are added and those that are fed are those of the feeds. -/
theorem filterMap_operations (feeds : List Feed) :
    (feeds.flatMap Feed.operations).filterMap Operation.added? = feeds.map Feed.id ∧
      (feeds.flatMap Feed.operations).filterMap Operation.fed? = feeds := by
  induction feeds with
  | nil => exact ⟨rfl, rfl⟩
  | cons feed rest ih =>
      simp [Feed.operations, Operation.added?, Operation.fed?, List.filterMap_cons, ih]

theorem Admits.mem_iff {feeds : List Feed} (admits : cache.Admits feeds operations) :
    operation ∈ operations ↔
      ∃ feed ∈ feeds, operation = .add feed.id ∨ operation = .forward feed.id feed.chunks := by
  rw [admits.all.mem_iff, List.mem_flatMap]
  simp [Feed.operations]

theorem Admits.plan {feeds : List Feed} (admits : cache.Admits feeds operations)
    (short : ∀ feed ∈ feeds, positions feed.chunks < Count.limit) : cache.Plan operations := by
  have added := (admits.all.filterMap Operation.added?).trans
    (List.Perm.of_eq (filterMap_operations feeds).1)
  have fed := (admits.all.filterMap Operation.fed?).trans
    (List.Perm.of_eq (filterMap_operations feeds).2)
  refine ⟨?_, ?_, added.nodup_iff.mpr admits.nodup, ?_, ?_, ?_⟩
  · intro id member
    obtain ⟨feed, _, same | same⟩ := admits.mem_iff.mp member
    · cases same
    · cases same
  · intro id member
    obtain ⟨feed, here, rfl⟩ := List.mem_map.mp (added.mem_iff.mp member)
    exact admits.fresh feed here
  · exact (fed.map Feed.id).nodup_iff.mpr admits.nodup
  · intro id chunks member
    obtain ⟨feed, here, same | same⟩ := admits.mem_iff.mp member
    · cases same
    · cases same
      exact Or.inr (admits.before feed here)
  · intro id chunks member
    obtain ⟨feed, here, same | same⟩ := admits.mem_iff.mp member
    · cases same
    · cases same
      rw [lengthOf_of_absent (admits.fresh feed here), Nat.zero_add]
      exact short feed here

/-- New sequences fit if and only if they can be added and fed. -/
theorem Admits.carriesOut_iff {feeds : List Feed} (admits : cache.Admits feeds operations)
    (sound : cache.Sound) (divided : 0 < cache.pool.blockSize)
    (short : ∀ feed ∈ feeds, positions feed.chunks < Count.limit) :
    cache.CarriesOut operations ↔
      ((feeds.map fun feed => positions feed.chunks).map fun length =>
        length ⌈/⌉ cache.pool.blockSize).sum ≤ cache.pool.freeCount := by
  have fed := (admits.all.filterMap Operation.fed?).trans
    (List.Perm.of_eq (filterMap_operations feeds).2)
  have lacks : ((operations.filterMap Operation.fed?).map cache.lackOf).sum =
      (feeds.map fun feed => positions feed.chunks ⌈/⌉ cache.pool.blockSize).sum := by
    rw [(fed.map cache.lackOf).sum_nat]
    exact sum_map_congr fun feed member => lackOf_of_absent (admits.fresh feed member)
  rw [(admits.plan short).carriesOut_iff sound divided, lacks, List.map_map]
  rfl

/-- Sequences that are there can all be fed if and only if the blocks that they lack are free. -/
theorem carriesOut_forward_all {order : List SequenceId} {input : SequenceId → List Chunk}
    (sound : cache.Sound) (divided : 0 < cache.pool.blockSize) (nodup : order.Nodup)
    (known : ∀ id ∈ order, id ∈ cache.sequences.keys)
    (short : ∀ id ∈ order, cache.lengthOf id + positions (input id) < Count.limit) :
    cache.CarriesOut (order.map fun id => .forward id (input id)) ↔
      (order.map fun id => cache.lackOf ⟨id, input id⟩).sum ≤ cache.pool.freeCount := by
  have fed : (order.map fun id => Operation.forward id (input id)).filterMap Operation.fed? =
      order.map fun id => ⟨id, input id⟩ := by
    rw [List.filterMap_map]
    exact congrFun List.filterMap_eq_map order
  have added : (order.map fun id => Operation.forward id (input id)).filterMap
      Operation.added? = [] := by
    simp [List.filterMap_map, Function.comp_def, Operation.added?]
  have plan : cache.Plan (order.map fun id => .forward id (input id)) := by
    refine ⟨?_, ?_, ?_, ?_, ?_, ?_⟩
    · simp
    · simp [added]
    · simp [added]
    · simpa [fed, Function.comp_def] using nodup
    · intro id chunks member
      obtain ⟨_, here, same⟩ := List.mem_map.mp member
      cases same
      exact Or.inl (Registry.mem_keys_iff.mp (known id here))
    · intro id chunks member
      obtain ⟨_, here, same⟩ := List.mem_map.mp member
      cases same
      exact short id here
  rw [plan.carriesOut_iff sound divided, fed, List.map_map]
  rfl

/-- Operations that feed a sequence which is not there are not all carried out. -/
theorem not_carriesOut_forward_all {order : List SequenceId} {input : SequenceId → List Chunk}
    (absent : cache.sequences.get? id = none) (member : id ∈ order) :
    ¬ cache.CarriesOut (order.map fun id => .forward id (input id)) := by
  induction order generalizing cache with
  | nil => exact absurd member List.not_mem_nil
  | cons first rest ih =>
      cases found : cache.sequences.get? first with
      | none => exact not_carriesOut_forward found
      | some sequence =>
          have differ : id ≠ first := by
            intro same
            rw [same, found] at absent
            cases absent
          have later : id ∈ rest := (List.mem_cons.mp member).resolve_left differ
          rcases (run_forward_meets found (input first)).ends with
            ⟨_, next, run, _, rfl⟩ | ⟨_, _, run, _⟩
          · rw [List.map_cons, carriesOut_of_ok run]
            refine ih ?_ later
            rw [get?_written, if_neg differ]
            exact absent
          · exact not_carriesOut_of_error run

/-! ### The checks -/

theorem lacksOne_eq_lackOf (sound : cache.Sound) {input : List Chunk} (one : positions input = 1)
    (known : id ∈ cache.sequences.keys) : cache.lacksOne id = cache.lackOf ⟨id, input⟩ := by
  obtain ⟨sequence, found⟩ := Registry.mem_keys_iff.mp known
  rw [lacksOne_of_found found, lackOf_of_found sound found, PagedSequence.lacks, one]

/-- A sequence lacks one block at most for one position more. -/
theorem Sound.lacksOne_le (sound : cache.Sound) (divided : 0 < cache.pool.blockSize)
    (id : SequenceId) : cache.lacksOne id ≤ 1 := by
  cases found : cache.sequences.get? id with
  | none => simp [lacksOne, found]
  | some sequence =>
      obtain ⟨size, length⟩ := sound.sized id sequence found
      rw [lacksOne_of_found found, BlockTable.shortfall, size, length, Count.ceilDiv_succ divided]
      split <;> omega

theorem Sound.sum_lacksOne_le (sound : cache.Sound) (divided : 0 < cache.pool.blockSize)
    (ids : List SequenceId) : (ids.map cache.lacksOne).sum ≤ ids.length := by
  have bound : (ids.map cache.lacksOne).sum ≤ (ids.map fun _ => 1).sum :=
    List.sum_le_sum fun id _ => sound.lacksOne_le divided id
  rwa [List.map_const', List.sum_replicate_nat, Nat.mul_one] at bound

/-- Whether a sequence can grow, if its length is a count afterwards. -/
theorem Sound.canGrow_eq (sound : cache.Sound) (divided : 0 < cache.pool.blockSize)
    (found : cache.sequences.get? id = some sequence) {additional : Nat}
    (countable : cache.lengthOf id + additional < Count.limit) :
    cache.canGrow id additional =
      .ok (cache.pool.canAllocate (sequence.table.shortfall additional)) := by
  obtain ⟨size, _⟩ := sound.sized id sequence found
  rw [lengthOf_of_found found] at countable
  have exists_needed := (BlockTable.needed_yields sequence.table additional).exists_ok (by
    rintro _ (⟨_, large⟩ | ⟨_, zero⟩)
    · exact Nat.not_lt_of_le large countable
    · omega)
  obtain ⟨_, counted, rfl, _⟩ := exists_needed
  rw [canGrow, found]
  dsimp only
  rw [counted]
  rfl

/-- **The checks of a sound cache are exact.** -/
theorem Sound.exactChecks (sound : cache.Sound) (divided : 0 < cache.pool.blockSize) :
    cache.ExactChecks where
  fit := by
    intro lengths short few
    obtain ⟨answer, ran, exact⟩ := (canFit_yields divided lengths).exists_ok fun stop overflows =>
      absurd few (Nat.not_lt_of_le overflows.2)
    refine ⟨answer, ran, ?_⟩
    intro feeds operations same admits
    subst same
    rw [exact, admits.carriesOut_iff sound divided]
    intro feed member
    exact short _ (List.mem_map_of_mem member)
  grow := by
    intro id additional short
    cases found : cache.sequences.get? id with
    | none =>
        refine ⟨false, by rw [canGrow, found], ?_⟩
        intro chunks _
        exact iff_of_false Bool.false_ne_true (not_carriesOut_forward found)
    | some sequence =>
        refine ⟨_, sound.canGrow_eq divided found short, ?_⟩
        intro chunks same
        subst same
        rw [carriesOut_forward sound divided found short, lackOf_of_found sound found,
          BlockPool.canAllocate, decide_eq_true_iff]
        exact (and_iff_left (carriesOut_nil _)).symm
  decode := by
    intro ids nodup few short
    have lacking := sound.sum_lacksOne_le divided ids
    obtain ⟨answer, ran, exact⟩ := (canDecode_yields sound divided ids).exists_ok (by
      rintro _ (⟨_, large⟩ | ⟨id, member, sequence, found, _, large⟩)
      · omega
      · have bound := short id member
        rw [lengthOf_of_found found] at bound
        omega)
    refine ⟨answer, ran, ?_⟩
    intro input order one perm
    rw [exact]
    by_cases known : ∀ id ∈ ids, id ∈ cache.sequences.keys
    · have same : (ids.map cache.lacksOne).sum =
          (order.map fun id => cache.lackOf ⟨id, input id⟩).sum := by
        rw [(perm.map _).sum_nat]
        exact sum_map_congr fun id member =>
          lacksOne_eq_lackOf sound (one id member) (known id member)
      rw [and_iff_right known, same]
      refine (carriesOut_forward_all sound divided (perm.nodup_iff.mpr nodup) ?_ ?_).symm
      · intro id member
        exact known id (perm.mem_iff.mp member)
      · intro id member
        rw [one id (perm.mem_iff.mp member)]
        exact short id (perm.mem_iff.mp member)
    · have absent : ∃ id ∈ ids, id ∉ cache.sequences.keys := by
        simpa using known
      obtain ⟨id, member, absent⟩ := absent
      refine iff_of_false (fun both => known both.1) ?_
      exact not_carriesOut_forward_all (Registry.get?_eq_none_iff.mpr absent)
        (perm.mem_iff.mpr member)

/-- **The checks are exact after every history.** Start without sequences, in blocks that can hold a
position, and let sequences be added, removed and fed, whether that is refused or not. Then the
checks promise exactly what can be carried out. -/
theorem checks_exact_after {name : String} {blockCount blockSize : Nat} {nextToken : NextToken}
    {diary : Diary} (divided : 0 < blockSize)
    (ran : (ofSize name blockCount blockSize nextToken).after (fun _ => none) operations =
      some (cache, diary)) : cache.ExactChecks := by
  have recorded := Recorded.ran divided (recorded_ofSize name blockCount blockSize nextToken) ran
  refine recorded.sound.exactChecks ?_
  rw [recorded.size]
  exact divided

/-- With one free block of two positions beside a full one and one that has room. -/
theorem checks_exact_after_crowdedHistory :
    0 < 2 ∧ ∃ cache diary,
      (ofSize "small" 3 2 fun _ => .plain 1 .one).after (fun _ => none) crowdedHistory =
        some (cache, diary) ∧
      cache.ExactChecks ∧
      cache.canFit [2] = .ok true ∧ cache.canFit [1, 1] = .ok false ∧
      cache.canGrow 7 2 = .ok true ∧ cache.canGrow 7 3 = .ok false ∧
      cache.canDecode [7, 0] = .ok true ∧ cache.canDecode [0, 5] = .ok false := by
  have answers : ((ofSize "small" 3 2 fun _ => .plain 1 .one).after (fun _ => none)
      crowdedHistory).any fun ended =>
        ended.1.canFit [2] = .ok true ∧ ended.1.canFit [1, 1] = .ok false ∧
        ended.1.canGrow 7 2 = .ok true ∧ ended.1.canGrow 7 3 = .ok false ∧
        ended.1.canDecode [7, 0] = .ok true ∧ ended.1.canDecode [0, 5] = .ok false := by
    decide +kernel
  obtain ⟨⟨cache, diary⟩, ran, answers⟩ := Option.any_eq_true _ _ |>.mp answers
  have divided : 0 < 2 := by decide
  exact ⟨divided, cache, diary, ran, checks_exact_after divided ran, by simpa using answers⟩

end ContinuousBatching.PagedCache
