/-
**What a run prints.**

A line is printed for every request that something was delivered to, in the order of the names,
which is that of their characters and not that of the numbers in them.

* `mem_recipients_iff`, `nodup_recipients`: who is a recipient, and that nobody is one twice;
* `recipients_sorted`: where the requests of a run were served, their names in order;
* `requestLines_eq`: the lines, if the texts can be told.
-/

import ContinuousBatching.Proofs.Scheduler.Answers
import ContinuousBatching.Proofs.Simulation.Service
import Mathlib.Data.List.Sort
import Mathlib.Data.String.Basic

namespace ContinuousBatching

namespace Simulation

variable {arguments : Arguments} {settings : EngineSettings} {engine : Engine}
  {delivered : List (List StreamRecord)} {id : RequestId}

theorem mem_recipients_iff : id ∈ recipients delivered ↔ toldOf id delivered.flatten ≠ [] := by
  rw [recipients, List.mem_eraseDups, List.mem_map, toldOf, ne_eq, List.map_eq_nil_iff,
    List.filter_eq_nil_iff]
  push Not
  simp only [decide_eq_true_eq]

theorem nodup_recipients (delivered : List (List StreamRecord)) : (recipients delivered).Nodup :=
  nodup_eraseDups _

theorem tokensFor_eq (delivered : List (List StreamRecord)) (id : RequestId) :
    tokensFor delivered id = (toldOf id delivered.flatten).flatMap Prod.fst := by
  rw [tokensFor, toldOf, List.flatMap_map]

/-! ### The order of the lines -/

/-- The requests of a run in the order of their names. -/
def Arguments.order (arguments : Arguments) : List Nat :=
  (List.range arguments.requests).mergeSort fun i j => decide (requestName i ≤ requestName j)

theorem Arguments.order_perm (arguments : Arguments) :
    arguments.order.Perm (List.range arguments.requests) :=
  List.mergeSort_perm ..

theorem Arguments.map_order (arguments : Arguments) :
    arguments.order.map requestName =
      ((List.range arguments.requests).map requestName).mergeSort fun a b => decide (a ≤ b) :=
  List.map_mergeSort fun _ _ _ _ => rfl

/-- Names follow each other in order. -/
theorem Arguments.order_pairwise (arguments : Arguments) :
    arguments.order.Pairwise fun i j => requestName i < requestName j := by
  have sorted : (arguments.order.map requestName).Pairwise (· ≤ ·) := by
    rw [map_order]
    exact List.pairwise_mergeSort' (· ≤ ·) _
  have nodup : (arguments.order.map requestName).Nodup :=
    (arguments.order_perm.nodup_iff.mpr List.nodup_range).map requestName_injective
  exact List.pairwise_map.mp ((sorted.and nodup).imp fun both => lt_of_le_of_ne both.1 both.2)

/-- **The recipients of a run** are its requests. -/
theorem Finished.recipients_sorted (finished : Finished arguments settings engine) :
    ((recipients engine.cluster.delivered).mergeSort fun a b => decide (a ≤ b)) =
      arguments.order.map requestName := by
  have perm : (recipients engine.cluster.delivered).Perm
      ((List.range arguments.requests).map requestName) := by
    refine (List.perm_ext_iff_of_nodup (nodup_recipients _)
      (List.nodup_range.map requestName_injective)).mpr fun id => ?_
    rw [mem_recipients_iff, List.mem_map]
    constructor
    · intro told
      by_contra none
      exact told (finished.untold id fun i less same =>
        none ⟨i, List.mem_range.mpr less, same.symm⟩)
    · rintro ⟨i, member, rfl⟩ untold
      have told := congrArg List.length (finished.told i (List.mem_range.mp member))
      rw [untold, List.length_map, length_solo] at told
      exact Nat.ne_of_lt arguments.generated_pos told
  rw [Arguments.map_order]
  refine List.Perm.eq_of_pairwise (fun _ _ _ _ => le_antisymm) (List.pairwise_mergeSort' (· ≤ ·) _)
    (List.pairwise_mergeSort' (· ≤ ·) _) ?_
  exact (List.mergeSort_perm _ _).trans (perm.trans (List.mergeSort_perm _ _).symm)

/-! ### The lines -/

/-- The line of a request: its name and its letters. -/
def Arguments.line (arguments : Arguments) (settings : EngineSettings) (i : Nat) : String :=
  s!"{requestName i}: {letters i arguments.promptLength (arguments.generated settings)}"

/-- The lines of requests that were told their tokens. -/
theorem Finished.requestLines_eq (finished : Finished arguments settings engine) :
    ∀ list : List Nat, (∀ i ∈ list, i < arguments.requests) →
      requestLines (.bytes (some usualEos)) engine.cluster.delivered (list.map requestName) =
        .ok (list.map (arguments.line settings))
  | [], _ => rfl
  | i :: rest, below => by
      have later := finished.requestLines_eq rest fun j member => below j (.tail i member)
      rw [List.map_cons, requestLines, tokensFor_eq, finished.told i (below i List.mem_cons_self),
        decode_letters, later]
      rfl

end Simulation

end ContinuousBatching
