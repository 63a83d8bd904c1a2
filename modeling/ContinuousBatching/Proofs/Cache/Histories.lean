/-
**Whatever is asked of a cache, no block is lost and no block is owned twice.**

A `PagedCache.Operation` adds, removes or feeds a sequence, with any id and any chunks. Beside the
cache a history keeps a `Diary`: the chunks that each sequence was fed since it was added, without
those of calls that were refused. The diary is all that can be seen of a cache but for the number of
free blocks:

* `PagedCache.Operation.obstacle?`: the cause for which an operation is refused, read off the diary;
* `PagedCache.Recorded`: the cache is sound, and each of its sequences has the length, the number of
  blocks and the context that belong to its entry in the diary (`PagedSequence.Holds`);
* `PagedCache.Recorded.run_meets`: an operation is carried out or refused as the diary says, a
  refused one changes nothing, and only a length of more than 64 bits is a fault;
* `PagedCache.Recorded.remove_all`: once every sequence is removed, every block is free;
* `PagedCache.blocks_owned_after`: so it is after every history.
-/

import ContinuousBatching.Proofs.Cache.Paged
import Mathlib.Data.Option.Basic

namespace ContinuousBatching

@[simp]
theorem positions_append (first second : List Chunk) :
    positions (first ++ second) = positions first + positions second := by
  simp only [positions_eq_sum, List.map_append, List.sum_append]

@[simp]
theorem tokenIds_append (first second : List Chunk) :
    tokenIds (first ++ second) = tokenIds first ++ tokenIds second :=
  List.flatMap_append

/-- A sequence that was fed these chunks, in blocks of this size. -/
structure PagedSequence.Holds (blockSize : Nat) (chunks : List Chunk) (sequence : PagedSequence) :
    Prop where
  length : sequence.table.length = positions chunks
  blocks : sequence.table.blocks.length = positions chunks ⌈/⌉ blockSize
  context : sequence.context = tokenIds chunks

namespace PagedCache

/-- What can be asked of a cache. -/
inductive Operation where
  | add (id : SequenceId)
  | remove (id : SequenceId)
  | forward (id : SequenceId) (chunks : List Chunk)
  deriving DecidableEq, Repr

/-- The chunks that each sequence was fed since it was added; none for one that is not there. -/
abbrev Diary := SequenceId → Option (List Chunk)

namespace Operation

/-- Carries an operation out. -/
def run : Operation → Action PagedCache Unit
  | .add id => addSequence id
  | .remove id => removeSequence id
  | .forward id chunks => discard (PagedCache.forward id chunks)

/-- The diary after an operation that was carried out. -/
def noted (diary : Diary) : Operation → Diary
  | .add id => Function.update diary id (some [])
  | .remove id => Function.update diary id none
  | .forward id chunks => Function.update diary id ((diary id).map (· ++ chunks))

/-- The cause for which an operation is refused, if it is. A sequence can be fed as long as the
blocks that it will have are no more than those that it has and the free ones. -/
def obstacle? (blockSize freeCount : Nat) (diary : Diary) : Operation → Option Failure
  | .add id => if (diary id).isSome then some (.sequenceExists id) else none
  | .remove id => if (diary id).isNone then some (.sequenceNotFound id) else none
  | .forward id chunks =>
    match diary id with
    | none => some (.sequenceNotFound id)
    | some fed =>
      if positions fed ⌈/⌉ blockSize + freeCount <
        positions (fed ++ chunks) ⌈/⌉ blockSize then some .outOfBlocks else none

/-- The operation would make a sequence longer than 64 bits can count. -/
def Overlong (diary : Diary) (operation : Operation) : Prop :=
  ∃ id chunks fed, operation = .forward id chunks ∧ diary id = some fed ∧
    Count.limit ≤ positions (fed ++ chunks)

end Operation

/-- The cache and its diary after a history, if nothing in it faulted: it goes on after a refusal
with whatever the refused operation left behind. -/
def after (cache : PagedCache) (diary : Diary) : List Operation → Option (PagedCache × Diary)
  | [] => some (cache, diary)
  | operation :: rest =>
    match operation.run cache with
    | .ok _ next => next.after (operation.noted diary) rest
    | .error (.refused _) next => next.after diary rest
    | .error (.fault _) _ => none

/-- The cache is sound, and its sequences are those of the diary. -/
structure Recorded (blockCount blockSize : Nat) (cache : PagedCache) (diary : Diary) : Prop where
  sound : cache.Sound
  count : cache.pool.blockCount = blockCount
  size : cache.pool.blockSize = blockSize
  holds : ∀ id, Option.Rel (PagedSequence.Holds blockSize) (diary id) (cache.sequences.get? id)

variable {blockCount blockSize : Nat} {cache next : PagedCache} {diary final : Diary}
  {id : SequenceId} {chunks fed : List Chunk} {sequence : PagedSequence}

theorem recorded_ofSize (name : String) (blockCount blockSize : Nat) (nextToken : NextToken) :
    (ofSize name blockCount blockSize nextToken).Recorded blockCount blockSize fun _ => none where
  sound := ofSize_sound name blockCount blockSize nextToken
  count := rfl
  size := rfl
  holds := fun _ => .none

namespace Recorded

/-! ### What the diary says about the cache -/

/-- The used and the free blocks are those of the cache. -/
theorem blocks_perm (recorded : cache.Recorded blockCount blockSize diary) :
    (cache.tableBlocks ++ cache.pool.free).Perm (List.range blockCount) := by
  have cover := recorded.sound.pool
  rw [BlockPool.Sound, recorded.count] at cover
  exact (recorded.sound.used.symm.append_right _).trans cover

theorem absent_iff (recorded : cache.Recorded blockCount blockSize diary) :
    cache.sequences.get? id = none ↔ diary id = none := by
  have holds := recorded.holds id
  constructor
  · intro absent
    rw [absent] at holds
    cases written : diary id with
    | none => rfl
    | some fed =>
        rw [written] at holds
        cases holds
  · intro unwritten
    rw [unwritten] at holds
    cases found : cache.sequences.get? id with
    | none => rfl
    | some sequence =>
        rw [found] at holds
        cases holds

theorem written_of_found (recorded : cache.Recorded blockCount blockSize diary)
    (found : cache.sequences.get? id = some sequence) :
    ∃ fed, diary id = some fed ∧ sequence.Holds blockSize fed := by
  have holds := recorded.holds id
  rw [found] at holds
  cases written : diary id with
  | none =>
      rw [written] at holds
      cases holds
  | some fed =>
      rw [written] at holds
      cases holds with
      | some holds => exact ⟨fed, rfl, holds⟩

/-- The blocks that a sequence lacks are those beyond the blocks that it has. -/
theorem lacks_eq (recorded : cache.Recorded blockCount blockSize diary)
    (found : cache.sequences.get? id = some sequence) (holds : sequence.Holds blockSize fed)
    (chunks : List Chunk) :
    sequence.lacks chunks = positions (fed ++ chunks) ⌈/⌉ blockSize -
      positions fed ⌈/⌉ blockSize := by
  have size := (recorded.sound.sized id sequence found).1
  rw [recorded.size] at size
  rw [PagedSequence.lacks, BlockTable.shortfall, size, holds.length, holds.blocks,
    positions_append]

/-! ### Operations -/

/-- What a look-up finds after one entry of the diary and of the cache has changed. -/
theorem updated (recorded : cache.Recorded blockCount blockSize diary) (sound : next.Sound)
    (count : next.pool.blockCount = cache.pool.blockCount)
    (size : next.pool.blockSize = cache.pool.blockSize) {entry : Option (List Chunk)}
    {there : Option PagedSequence} (holds : Option.Rel (PagedSequence.Holds blockSize) entry there)
    (found : ∀ other, next.sequences.get? other =
      if other = id then there else cache.sequences.get? other) :
    next.Recorded blockCount blockSize (Function.update diary id entry) where
  sound := sound
  count := count.trans recorded.count
  size := size.trans recorded.size
  holds := fun other => by
    rw [found, Function.update_apply]
    split
    · exact holds
    · exact recorded.holds other

theorem registered (recorded : cache.Recorded blockCount blockSize diary)
    (fresh : cache.sequences.get? id = none) :
    (cache.registered id).Recorded blockCount blockSize (Operation.noted diary (.add id)) := by
  have none : PagedSequence.Holds blockSize [] ⟨.ofBlockSize cache.pool.blockSize, []⟩ :=
    ⟨rfl, (zero_ceilDiv blockSize).symm, rfl⟩
  exact recorded.updated (recorded.sound.registered fresh) rfl rfl (.some none)
    fun _ => get?_registered

theorem without (recorded : cache.Recorded blockCount blockSize diary) (id : SequenceId) :
    (cache.without id).Recorded blockCount blockSize (Operation.noted diary (.remove id)) :=
  recorded.updated recorded.sound.without blockCount_without blockSize_without .none
    fun _ => get?_without

theorem written (recorded : cache.Recorded blockCount blockSize diary)
    (found : cache.sequences.get? id = some sequence)
    (enough : sequence.lacks chunks ≤ cache.pool.freeCount) :
    (cache.written id sequence chunks).Recorded blockCount blockSize
      (Operation.noted diary (.forward id chunks)) := by
  obtain ⟨fed, entry, holds⟩ := recorded.written_of_found found
  have blocks := recorded.sound.length_blocks_fed found enough
  rw [recorded.size, holds.length, ← positions_append] at blocks
  have length : sequence.table.length + positions chunks = positions (fed ++ chunks) := by
    rw [holds.length, positions_append]
  have context : sequence.context ++ tokenIds chunks = tokenIds (fed ++ chunks) := by
    rw [holds.context, tokenIds_append]
  rw [Operation.noted, entry]
  exact recorded.updated (recorded.sound.written found enough) rfl rfl
    (.some ⟨length, blocks, context⟩) fun _ => get?_written

/-- **One operation.** It is carried out unless the diary and the number of free blocks stand in its
way; a refusal changes nothing. -/
theorem run_meets (recorded : cache.Recorded blockCount blockSize diary) (divided : 0 < blockSize)
    (operation : Operation) :
    Meets operation.run cache
      (fun _ next => operation.obstacle? blockSize cache.pool.freeCount diary = none ∧
        next.Recorded blockCount blockSize (operation.noted diary))
      (fun stop next =>
        (∃ cause, stop = .refused cause ∧ next = cache ∧
          operation.obstacle? blockSize cache.pool.freeCount diary = some cause) ∨
        (stop = .fault .overflow ∧ operation.Overlong diary)) := by
  cases operation with
  | add id =>
      refine (addSequence_meets cache id).mono ?_ ?_
      · rintro _ _ ⟨fresh, rfl⟩
        refine ⟨?_, recorded.registered fresh⟩
        simp only [Operation.obstacle?, recorded.absent_iff.mp fresh, Option.isSome_none,
          Bool.false_eq_true, if_false]
      · rintro _ _ ⟨rfl, rfl, present⟩
        obtain ⟨sequence, found⟩ := Registry.mem_keys_iff.mp present
        obtain ⟨fed, entry, _⟩ := recorded.written_of_found found
        refine Or.inl ⟨_, rfl, rfl, ?_⟩
        simp only [Operation.obstacle?, entry, Option.isSome_some, if_true]
  | remove id =>
      refine (removeSequence_meets cache id).mono ?_ ?_
      · rintro _ _ ⟨present, rfl⟩
        obtain ⟨sequence, found⟩ := Registry.mem_keys_iff.mp present
        obtain ⟨fed, entry, _⟩ := recorded.written_of_found found
        refine ⟨?_, recorded.without id⟩
        simp only [Operation.obstacle?, entry, Option.isNone_some, Bool.false_eq_true, if_false]
      · rintro _ _ ⟨rfl, rfl, absent⟩
        refine Or.inl ⟨_, rfl, rfl, ?_⟩
        simp only [Operation.obstacle?, recorded.absent_iff.mp absent, Option.isNone_none, if_true]
  | forward id chunks =>
      unfold Operation.run
      rw [meets_discard]
      cases found : cache.sequences.get? id with
      | none =>
          unfold Meets
          rw [forward_of_absent found]
          refine Or.inl ⟨_, rfl, rfl, ?_⟩
          simp only [Operation.obstacle?, recorded.absent_iff.mp found]
      | some sequence =>
          obtain ⟨fed, entry, holds⟩ := recorded.written_of_found found
          have lacks := recorded.lacks_eq found holds chunks
          refine (forward_meets found chunks).mono ?_ ?_
          · rintro _ _ ⟨enough, _, rfl⟩
            refine ⟨?_, recorded.written found enough⟩
            simp only [Operation.obstacle?, entry]
            rw [if_neg]
            omega
          · rintro _ _ (⟨rfl, rfl, short⟩ | ⟨rfl, large⟩ | ⟨_, zero⟩)
            · refine Or.inl ⟨_, rfl, rfl, ?_⟩
              simp only [Operation.obstacle?, entry]
              rw [if_pos]
              omega
            · rw [holds.length, ← positions_append] at large
              exact Or.inr ⟨rfl, id, chunks, fed, rfl, entry, large⟩
            · rw [(recorded.sound.sized id sequence found).1, recorded.size] at zero
              omega

/-! ### Histories -/

/-- **A history.** The diary keeps up with the cache. -/
theorem ran (divided : 0 < blockSize) :
    ∀ {operations : List Operation} {cache : PagedCache} {diary : Diary},
      cache.Recorded blockCount blockSize diary →
      cache.after diary operations = some (next, final) →
      next.Recorded blockCount blockSize final
  | [], _, _, recorded, ended => by
      cases ended
      exact recorded
  | operation :: rest, cache, diary, recorded, ended => by
      unfold after at ended
      rcases (recorded.run_meets divided operation).ends with
        ⟨_, middle, run, _, kept⟩ | ⟨_, middle, run, ⟨cause, rfl, rfl, _⟩ | ⟨rfl, _⟩⟩
      · rw [run] at ended
        exact ran divided kept ended
      · rw [run] at ended
        exact ran divided recorded ended
      · rw [run] at ended
        cases ended

/-- A cache with an empty diary has no sequence, and all of its blocks are free. -/
theorem all_free (recorded : cache.Recorded blockCount blockSize fun _ => none) :
    cache.sequences.keys = [] ∧ cache.pool.free.Perm (List.range blockCount) := by
  have none : cache.sequences.keys = [] := by
    refine List.eq_nil_iff_forall_not_mem.mpr fun id => ?_
    exact Registry.get?_eq_none_iff.mp (recorded.absent_iff.mpr rfl)
  have entries : cache.sequences.entries = [] := List.map_eq_nil_iff.mp none
  have perm := recorded.blocks_perm
  rw [tableBlocks, Registry.values, entries] at perm
  exact ⟨none, perm⟩

/-- **Removing every sequence** is possible in any order. -/
theorem remove_all (divided : 0 < blockSize) :
    ∀ {order : List SequenceId} {cache : PagedCache} {diary : Diary},
      cache.Recorded blockCount blockSize diary → order.Perm cache.sequences.keys →
      ∃ last, cache.after diary (order.map .remove) = some (last, fun _ => none)
  | [], cache, diary, recorded, all => by
      have none : cache.sequences.keys = [] := all.symm.eq_nil
      have empty : diary = fun _ => Option.none := by
        funext id
        refine recorded.absent_iff.mp (Registry.get?_eq_none_iff.mpr ?_)
        rw [none]
        exact List.not_mem_nil
      exact ⟨cache, by rw [empty]; rfl⟩
  | id :: rest, cache, diary, recorded, all => by
      have present : id ∈ cache.sequences.keys := all.mem_iff.mp List.mem_cons_self
      have others : rest.Perm (cache.without id).sequences.keys := by
        have fewer := all.erase id
        rw [List.erase_cons_head, cache.sequences.nodup_keys.erase_eq_filter] at fewer
        rw [keys_without]
        refine fewer.trans (List.Perm.of_eq (List.filter_congr fun other _ => ?_))
        by_cases same : other = id <;> simp [same]
      have removes : Operation.run (.remove id) cache = .ok () (cache.without id) := by
        have meets := removeSequence_meets cache id
        rcases meets.ends with ⟨_, next, run, _, rfl⟩ | ⟨_, _, _, _, _, absent⟩
        · exact run
        · exact absurd present (Registry.get?_eq_none_iff.mp absent)
      obtain ⟨last, ended⟩ := remove_all divided (recorded.without id) others
      refine ⟨last, ?_⟩
      rw [List.map_cons, after, removes]
      exact ended

end Recorded

/-- **Blocks over any history.** Start without sequences, and let sequences be added, removed and
fed, in any order and with any arguments, whether that is refused or not. The blocks in the tables
and the free ones are those of the cache, none of them twice; each sequence has the length, the
blocks and the context of what it was fed since it was added; an operation that comes next is
carried out, or it is refused for the cause that the diary shows and changes nothing, unless it
makes a sequence longer than 64 bits can count; and once all sequences are removed, in whatever
order, all blocks are free. -/
theorem blocks_owned_after {name : String} {nextToken : NextToken} (divided : 0 < blockSize)
    {operations : List Operation}
    (ran : (ofSize name blockCount blockSize nextToken).after (fun _ => none) operations =
      some (cache, diary)) :
    (cache.tableBlocks ++ cache.pool.free).Perm (List.range blockCount) ∧
      (∀ id, Option.Rel (PagedSequence.Holds blockSize) (diary id) (cache.sequences.get? id)) ∧
      (∀ operation : Operation, Meets operation.run cache
        (fun _ _ => operation.obstacle? blockSize cache.pool.freeCount diary = none)
        (fun stop next =>
          (∃ cause, stop = .refused cause ∧ next = cache ∧
            operation.obstacle? blockSize cache.pool.freeCount diary = some cause) ∨
          (stop = .fault .overflow ∧ operation.Overlong diary))) ∧
      ∀ order : List SequenceId, order.Perm cache.sequences.keys →
        ∃ last, cache.after diary (order.map .remove) = some (last, fun _ => none) ∧
          last.sequences.keys = [] ∧ last.pool.free.Perm (List.range blockCount) := by
  have start := recorded_ofSize name blockCount blockSize nextToken
  have recorded := Recorded.ran divided start ran
  refine ⟨recorded.blocks_perm, recorded.holds, fun operation => ?_, fun order all => ?_⟩
  · exact (recorded.run_meets divided operation).mono (fun _ _ both => both.1) fun _ _ => id
  · obtain ⟨last, ended⟩ := recorded.remove_all divided all
    exact ⟨last, ended, (Recorded.ran divided recorded ended).all_free⟩

/-- A history on three blocks of two positions with a refusal of each kind, in which a sequence
takes over the blocks of one that was removed. -/
def crowdedHistory : List Operation :=
  [.add 0, .add 0, .forward 0 [.tokens [1, 2, 3]], .forward 5 [.tokens [1]], .add 7,
    .forward 7 [.embedding "image" 4], .forward 7 [.tokens [9], .embedding "image" 1], .remove 0,
    .remove 0, .add 0, .forward 0 [.tokens [4]], .forward 7 []]

theorem blocks_owned_after_crowdedHistory :
    0 < 2 ∧ ∃ cache diary,
      (ofSize "small" 3 2 fun _ => .plain 1 .one).after (fun _ => none) crowdedHistory =
        some (cache, diary) ∧
      (cache.tableBlocks ++ cache.pool.free).Perm (List.range 3) ∧
      (∀ id, Option.Rel (PagedSequence.Holds 2) (diary id) (cache.sequences.get? id)) ∧
      (∀ operation : Operation, Meets operation.run cache
        (fun _ _ => operation.obstacle? 2 cache.pool.freeCount diary = none)
        (fun stop next =>
          (∃ cause, stop = .refused cause ∧ next = cache ∧
            operation.obstacle? 2 cache.pool.freeCount diary = some cause) ∨
          (stop = .fault .overflow ∧ operation.Overlong diary))) ∧
      ∃ last, cache.after diary (cache.sequences.keys.map .remove) = some (last, fun _ => none) ∧
        last.sequences.keys = [] ∧ last.pool.free.Perm (List.range 3) := by
  have ended : ((ofSize "small" 3 2 fun _ => .plain 1 .one).after (fun _ => none)
      crowdedHistory).isSome := by
    decide +kernel
  obtain ⟨⟨cache, diary⟩, ran⟩ := Option.isSome_iff_exists.mp ended
  have divided : 0 < 2 := by decide
  obtain ⟨blocks, holds, next, empties⟩ := blocks_owned_after divided ran
  exact ⟨divided, cache, diary, ran, blocks, holds, next,
    empties cache.sequences.keys (List.Perm.refl _)⟩

end PagedCache

end ContinuousBatching
