/-
**The lanes of a ticket.**

The lanes of a ticket are changed all alike or one at a time. The sequence of a request is that of
its primary lane; the bookkeeping relies on every other lane being attached to the same one
(`Ticket.Alike`). Changes that leave the attachment of a lane alone keep it so.

* `Ticket.lanes_mapLanes`, `Ticket.lanes_modifyLane`: the lanes after a change;
* `Ticket.Alike.modifyLane`, `Ticket.alike_attachAll`: which changes keep the lanes alike;
* `Ticket.occupied_modifyLane`: only a commit to the primary lane changes what is occupied.
-/

import ContinuousBatching.Request.Ticket

namespace ContinuousBatching.Ticket

variable {ticket : Ticket} {change : Lane → Lane} {replica : Nat} {sequence : Option SequenceId}

/-- Every lane is attached to the sequence of the primary one, if any. -/
def Alike (ticket : Ticket) : Prop :=
  ∀ lane ∈ ticket.lanes, lane.sequence = ticket.primary.sequence

/-! ### The lanes after a change -/

@[simp]
theorem lanes_mapLanes : (ticket.mapLanes change).lanes = ticket.lanes.map change := rfl

@[simp]
theorem lanes_modifyLane :
    (ticket.modifyLane replica change).lanes = ticket.lanes.modify replica change := by
  cases replica <;> rfl

@[simp]
theorem lane?_mapLanes {place : Nat} :
    (ticket.mapLanes change).lane? place = (ticket.lane? place).map change := by
  rw [lane?, lanes_mapLanes, List.getElem?_map]
  rfl

theorem lane?_modifyLane {place : Nat} :
    (ticket.modifyLane replica change).lane? place =
      if place = replica then (ticket.lane? place).map change else ticket.lane? place := by
  rw [lane?, lanes_modifyLane, List.getElem?_modify]
  split
  · rename_i same
    subst same
    rw [if_pos rfl]
    rfl
  · rename_i differ
    rw [if_neg (Ne.symm differ)]
    exact Option.map_id' ..

/-- Only what a change does to the lane that is there matters. -/
theorem modifyLane_congr {other : Lane → Lane} {lane : Lane}
    (there : ticket.lane? replica = some lane) (same : change lane = other lane) :
    ticket.modifyLane replica change = ticket.modifyLane replica other := by
  cases replica with
  | zero =>
      cases there
      show { ticket with primary := change ticket.primary } = _
      rw [same]
      rfl
  | succ i =>
      have others : ticket.others.modify i change = ticket.others.modify i other := by
        refine List.ext_getElem? fun place => ?_
        rw [List.getElem?_modify, List.getElem?_modify]
        by_cases here : i = place
        · subst here
          rw [show ticket.others[i]? = some lane from there]
          simp [same]
        · simp [here]
      show { ticket with others := ticket.others.modify i change } = _
      rw [others]
      rfl

theorem modifyLane_modifyLane {later : Lane → Lane} :
    (ticket.modifyLane replica change).modifyLane replica later =
      ticket.modifyLane replica fun lane => later (change lane) := by
  cases replica with
  | zero => rfl
  | succ i =>
      show { ticket with others := (ticket.others.modify i change).modify i later } = _
      rw [List.modify_modify_eq]
      rfl

@[simp]
theorem request_modifyLane : (ticket.modifyLane replica change).request = ticket.request := by
  cases replica <;> rfl

@[simp]
theorem reported_modifyLane : (ticket.modifyLane replica change).reported = ticket.reported := by
  cases replica <;> rfl

@[simp]
theorem finish_modifyLane : (ticket.modifyLane replica change).finish = ticket.finish := by
  cases replica <;> rfl

@[simp]
theorem abortRequested_modifyLane :
    (ticket.modifyLane replica change).abortRequested = ticket.abortRequested := by
  cases replica <;> rfl

theorem lane?_zero : ticket.lane? 0 = some ticket.primary := rfl

theorem primary_mem_lanes : ticket.primary ∈ ticket.lanes := List.mem_cons_self

theorem lane_mem {place : Nat} {lane : Lane} (found : ticket.lane? place = some lane) :
    lane ∈ ticket.lanes :=
  List.mem_of_getElem? found

/-! ### Attachment -/

theorem primary_modifyLane_sequence (kept : ∀ lane, (change lane).sequence = lane.sequence) :
    (ticket.modifyLane replica change).primary.sequence = ticket.primary.sequence := by
  cases replica with
  | zero => exact kept _
  | succ => rfl

theorem Alike.modifyLane (alike : ticket.Alike)
    (kept : ∀ lane, (change lane).sequence = lane.sequence) :
    (ticket.modifyLane replica change).Alike := by
  intro lane member
  rw [lanes_modifyLane] at member
  rw [primary_modifyLane_sequence kept]
  obtain ⟨place, found⟩ := List.mem_iff_getElem?.mp member
  rw [List.getElem?_modify] at found
  obtain ⟨before, there, rfl⟩ := Option.map_eq_some_iff.mp found
  have same := alike before (List.mem_of_getElem? there)
  split
  · rw [kept, same]
  · exact same

theorem Alike.mapLanes (alike : ticket.Alike)
    (kept : ∀ lane, (change lane).sequence = lane.sequence) : (ticket.mapLanes change).Alike := by
  intro lane member
  rw [lanes_mapLanes] at member
  obtain ⟨before, there, rfl⟩ := List.mem_map.mp member
  rw [kept, alike before there]
  exact (kept ticket.primary).symm

theorem alike_attachAll : (ticket.attachAll sequence).Alike := by
  intro lane member
  rw [attachAll, lanes_mapLanes] at member
  obtain ⟨before, _, rfl⟩ := List.mem_map.mp member
  rfl

/-- The lanes of a new request have to be fed its input. -/
theorem lanes_ofRequest {request : Request} {replicas : Nat} {lane : Lane}
    (member : lane ∈ (ofRequest request replicas).lanes) :
    ∃ place, lane = .ofInputs place request.inputs := by
  rcases List.mem_cons.mp member with rfl | other
  · exact ⟨0, rfl⟩
  · obtain ⟨place, _, rfl⟩ := List.mem_map.mp other
    exact ⟨place + 1, rfl⟩

theorem alike_ofRequest (request : Request) (replicas : Nat) :
    (ofRequest request replicas).Alike := by
  intro lane member
  obtain ⟨place, rfl⟩ := lanes_ofRequest member
  rfl

theorem attachAll_attachAll {first second : Option SequenceId} :
    (ticket.attachAll first).attachAll second = ticket.attachAll second := by
  simp only [attachAll, mapLanes, List.map_map]
  rfl

theorem Alike.refersTo_iff (alike : ticket.Alike) {id : SequenceId} :
    ticket.refersTo id = true ↔ ticket.primary.sequence = some id := by
  simp only [refersTo, List.any_eq_true, decide_eq_true_eq]
  constructor
  · rintro ⟨lane, member, held⟩
    rw [← alike lane member, held]
  · exact fun held => ⟨ticket.primary, primary_mem_lanes, held⟩

/-! ### What is occupied -/

@[simp]
theorem occupied_attachAll : (ticket.attachAll sequence).occupied = ticket.occupied := rfl

/-- A change that commits nothing to the primary lane leaves the occupied positions alone. -/
theorem occupied_modifyLane
    (kept : replica = 0 → (change ticket.primary).committed = ticket.primary.committed) :
    (ticket.modifyLane replica change).occupied = ticket.occupied := by
  cases replica with
  | zero =>
      show ticket.request.inputLength + ((change ticket.primary).committed.length - 1) = _
      rw [kept rfl]
      rfl
  | succ => rfl

end ContinuousBatching.Ticket
