import Mathlib.Data.List.DropRight
import FleetCoordination.Ring
/-!
# What a ring holds

A ring lists the last items that were written to it, as many as it has slots.
-/
namespace FleetCoordination.Ring
variable {α : Type} {capacity i : Nat} {r : Ring α capacity}

/-! ## Places -/

theorem slot_start (r : Ring α capacity) (i : Nat) :
    r.slot (r.start + i) = r.slot (r.head + (capacity - r.used) + i) := by
  have sum : r.head + (capacity - r.used) = r.head + capacity - r.used := (Nat.add_sub_assoc r.used_le _).symm
  rw [sum]
  exact Fin.ext (Nat.mod_add_mod ..)

/-- While there is room the items stay where they are. -/
theorem slot_push_of_room (room : r.used < capacity) (a : α) (i : Nat) :
    (r.push a).slot ((r.push a).start + i) = r.slot (r.start + i) := by
  have head : ((r.push a).head : Nat) = (r.head + 1) % capacity := rfl
  have used : (r.push a).used = r.used + 1 := Nat.min_eq_left room
  have same : r.head + 1 + (capacity - (r.used + 1) + i) = r.head + (capacity - r.used) + i := by omega
  rw [slot_start, slot_start, head, used, Nat.add_assoc, ← same]
  exact Fin.ext (Nat.mod_add_mod ..)

/-- In a full ring every place is the next one. -/
theorem slot_push_of_full (full : r.used = capacity) (a : α) (i : Nat) :
    (r.push a).slot ((r.push a).start + i) = r.slot (r.start + (i + 1)) := by
  have head : ((r.push a).head : Nat) = (r.head + 1) % capacity := rfl
  have used : (r.push a).used = capacity := Nat.min_eq_right (by omega)
  have same : r.head + 1 + (capacity - capacity + i) = r.head + (capacity - capacity) + (i + 1) := by omega
  rw [slot_start, slot_start, head, used, full, Nat.add_assoc, ← same]
  exact Fin.ext (Nat.mod_add_mod ..)

/-- The head is the place behind the last item. -/
theorem slot_start_eq_head (within : i ≤ r.used) (later : 0 < capacity - r.used + i) :
    r.slot (r.start + i) = r.head ↔ i = r.used := by
  have head := r.head.isLt
  have used := r.used_le
  rw [slot_start, Fin.ext_iff, slot]
  dsimp only
  rcases Nat.lt_or_ge (r.head + (capacity - r.used) + i) capacity with below | beyond
  · rw [Nat.mod_eq_of_lt below]
    omega
  · rw [Nat.mod_eq_sub_mod beyond, Nat.mod_eq_of_lt (by omega)]
    omega

/-! ## Items -/

theorem get_push (r : Ring α capacity) (a : α) (j : Fin capacity) :
    (r.push a).slots.get j = if j = r.head then a else r.slots.get j := by
  have set : (r.push a).slots.get j = (r.slots.set r.head a)[j.val] := rfl
  rw [set, Vector.getElem_set]
  simp only [← Fin.ext_iff, @eq_comm _ r.head]
  rfl

theorem item_push_of_room (room : r.used < capacity) (a : α) (within : i ≤ r.used) :
    (r.push a).item i = if i = r.used then a else r.item i := by
  simp only [item, slot_push_of_room room, get_push, slot_start_eq_head within (by omega)]

theorem item_push_of_full (full : r.used = capacity) (a : α) (within : i < r.used) :
    (r.push a).item i = if i + 1 = r.used then a else r.item (i + 1) := by
  simp only [item, slot_push_of_full full, get_push, slot_start_eq_head (Nat.succ_le_of_lt within) (by omega)]

@[simp] theorem length_toList (r : Ring α capacity) : r.toList.length = r.used := by simp [toList]

/-- A ring keeps its items and the one that is written, as far as it has slots. -/
theorem toList_push (r : Ring α capacity) (a : α) : (r.push a).toList = (r.toList ++ [a]).rtake capacity := by
  have count : (r.push a).used = min (r.used + 1) capacity := rfl
  refine List.ext_getElem (by simp [List.rtake, count]; omega) fun i h _ => ?_
  rw [length_toList, count] at h
  simp only [List.rtake, List.getElem_drop, List.getElem_append, toList, List.getElem_map, List.getElem_range,
    List.length_append, List.length_map, List.length_range, List.length_singleton, List.getElem_singleton]
  rcases Nat.lt_or_eq_of_le r.used_le with room | full
  · have first : r.used + 1 - capacity = 0 := Nat.sub_eq_zero_of_le room
    simp only [first, Nat.zero_add, item_push_of_room room a (show i ≤ r.used by omega)]
    by_cases last : i = r.used
    · rw [if_pos last, dif_neg (by omega)]
    · rw [if_neg last, dif_pos (by omega)]
  · have first : r.used + 1 - capacity = 1 := by omega
    simp only [first, Nat.add_comm 1, item_push_of_full full a (show i < r.used by omega)]
    by_cases last : i + 1 = r.used
    · rw [if_pos last, dif_neg (by omega)]
    · rw [if_neg last, dif_pos (by omega)]

theorem last?_eq (r : Ring α capacity) : r.last? = r.toList.getLast? := by
  unfold last?
  split
  · next none => rw [toList, none]; rfl
  · next filled =>
    have used := r.used_le
    have last : r.head + (capacity - r.used) + (r.used - 1) = r.head + capacity - 1 := by omega
    rw [List.getLast?_eq_getElem?, length_toList, List.getElem?_eq_getElem (by simp; omega)]
    simp [toList, item, slot_start, last]

end FleetCoordination.Ring
