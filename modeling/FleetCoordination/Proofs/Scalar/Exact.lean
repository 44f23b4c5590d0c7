import Mathlib.Algebra.BigOperators.Group.List.Basic
import Mathlib.Algebra.Field.Rat
import Mathlib.Algebra.Order.Ring.Rat
import Mathlib.Data.Rat.Floor
import Mathlib.Tactic.NormNum
import FleetCoordination.Scalar
/-!
# Exact scalars

Over the rationals the operations of a scalar are the usual ones. A finite float stands for one of
them.
-/
namespace FleetCoordination.Scalar

@[simp] theorem magnitude_eq_abs (x : Rat) : magnitude x = |x| := by
  change (if x < 0 then -x else x) = |x|
  split
  · next below => exact (abs_of_neg below).symm
  · next above => exact (abs_of_nonneg (not_lt.mp above)).symm

@[simp] theorem sum_eq_sum (xs : List Rat) : sum xs = xs.sum := by
  have zero : (0.0 : Rat) = 0 := by norm_num
  change xs.foldl (· + ·) (0.0 : Rat) = xs.sum
  rw [zero, List.sum_eq_foldl]

@[simp] theorem order_eq_lt_iff {a b : Rat} : order a b = .lt ↔ a < b := by
  change (if a < b then Ordering.lt else if a = b then .eq else .gt) = .lt ↔ a < b
  split
  · next less => simp [less]
  · next above => split <;> simp [above]

@[simp] theorem order_eq_eq_iff {a b : Rat} : order a b = .eq ↔ a = b := by
  change (if a < b then Ordering.lt else if a = b then .eq else .gt) = .eq ↔ a = b
  split
  · next less => simp [less.ne]
  · split <;> simp_all

@[simp] theorem isLE_order_iff {a b : Rat} : (order a b).isLE = true ↔ a ≤ b := by
  rw [le_iff_lt_or_eq, ← order_eq_lt_iff, ← order_eq_eq_iff]
  cases order a b <;> simp

@[simp] theorem inUnit_iff {x : Rat} : inUnit x = true ↔ 0 ≤ x ∧ x ≤ 1 := by
  have zero : (0.0 : Rat) = 0 := by norm_num
  have one : (1.0 : Rat) = 1 := by norm_num
  change (decide ((0.0 : Rat) ≤ x) && decide (x ≤ (1.0 : Rat))) = true ↔ _
  rw [Bool.and_eq_true, decide_eq_true_iff, decide_eq_true_iff, zero, one]

theorem ceiling_eq_natCeil (x : Rat) : ceiling x = min ⌈x⌉₊ (Word.last 64) := by
  have ceil : x.ceil = ⌈x⌉ := eq_of_forall_ge_iff fun k => Rat.ceil_le_iff.trans Int.ceil_le.symm
  change min x.ceil.toNat (Word.last 64) = _
  rw [ceil, Int.ceil_toNat]

/-- The value of a float, if it is finite. -/
def rational? (x : Float) : Option Rat :=
  match x.toModel.unpack with
  | .finite sign m e _ => some (sign.apply m * 2 ^ e)
  | .zero _ => some 0
  | .infinity _ | .notANumber => none

end FleetCoordination.Scalar
