import Mathlib.Data.List.DropRight
/-!
# The last items of a list

What a bounded memory keeps of all that it was given: laws of `List.rtake` for memories that slide,
and for those that are asked what they still hold.
-/
namespace FleetCoordination

variable {α : Type} {m n : Nat} {x : α} {xs ys : List α}

theorem rtake_suffix (n : Nat) (xs : List α) : xs.rtake n <:+ xs := List.drop_suffix ..

theorem rtake_rtake (m n : Nat) (xs : List α) : (xs.rtake n).rtake m = xs.rtake (min m n) := by
  simp only [List.rtake_eq_reverse_take_reverse, List.reverse_reverse, List.take_take]

theorem length_rtake (n : Nat) (xs : List α) : (xs.rtake n).length = min n xs.length := by
  rw [List.rtake, List.length_drop]
  omega

theorem rtake_min_length (n : Nat) (xs : List α) : xs.rtake (min n xs.length) = xs.rtake n := by
  have amount : xs.length - min n xs.length = xs.length - n := by omega
  simp only [List.rtake, amount]

theorem rtake_append (h : n ≤ ys.length) : (xs ++ ys).rtake n = ys.rtake n := by
  simp only [List.rtake_eq_reverse_take_reverse, List.reverse_append]
  rw [List.take_append_of_le_length (by simpa using h)]

theorem mem_rtake (h : ys.length < n) : x ∈ (xs ++ x :: ys).rtake n := by
  have fits : (xs ++ x :: ys).length - n ≤ xs.length := by simp; omega
  rw [List.rtake, List.drop_append_of_le_length fits]
  simp

theorem getLast?_rtake (kept : n ≠ 0) (xs : List α) : (xs.rtake n).getLast? = xs.getLast? := by
  obtain ⟨n, rfl⟩ := Nat.exists_eq_succ_of_ne_zero kept
  cases xs using List.reverseRecOn with
  | nil => simp
  | append_singleton xs x => rw [List.rtake_concat_succ, List.getLast?_concat, List.getLast?_concat]

/-- What was dropped before an item came is not missed after it. -/
theorem rtake_rtake_concat (n : Nat) (xs : List α) (x : α) : (xs.rtake n ++ [x]).rtake n = (xs ++ [x]).rtake n := by
  cases n with
  | zero => simp
  | succ n => rw [List.rtake_concat_succ, List.rtake_concat_succ, rtake_rtake, Nat.min_eq_left n.le_succ]

/-- A full memory drops its first item for a new one. -/
theorem slide_rtake (n : Nat) (xs : List α) (x : α) :
    (if (xs.rtake (n + 1)).length = n + 1 then (xs.rtake (n + 1)).tail else xs.rtake (n + 1)) ++ [x] =
      (xs ++ [x]).rtake (n + 1) := by
  rw [List.rtake_concat_succ, length_rtake]
  congr 1
  simp only [List.rtake]
  split
  · rw [List.tail_drop]
    congr 1
    omega
  · congr 1
    omega

end FleetCoordination
