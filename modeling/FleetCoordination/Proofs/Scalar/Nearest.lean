import Mathlib.Algebra.Order.Archimedean.Basic
import Mathlib.Algebra.Order.Field.Power
import Mathlib.Data.Int.Log
import Mathlib.Data.Rat.Floor
import Mathlib.Tactic.FieldSimp
import Mathlib.Tactic.Linarith
import Mathlib.Tactic.Positivity
/-!
# Nearest floats

A number that is not negative is rounded to the nearest of the floats about it, and to the one with
an even mantissa if two are nearest. So what is rounded is not far from the number, and the greater
of two numbers is not rounded to the lesser float.
-/
namespace FleetCoordination.Scalar

/-! ## Whole numbers -/

/-- Whether a whole number is the nearest one; of two that are, it is the even one. -/
structure Nearest (x : Rat) (n : Nat) : Prop where
  close : |x - n| ≤ 1 / 2
  even : |x - n| = 1 / 2 → n % 2 = 0

namespace Nearest
variable {x y : Rat} {n m k : Nat}

theorem mono (h : Nearest x n) (h' : Nearest y m) (le : x ≤ y) : n ≤ m := by
  by_contra above
  have next : (m : Rat) + 1 ≤ n := by exact_mod_cast Nat.not_le.mp above
  obtain ⟨low, -⟩ := abs_le.mp h.close
  obtain ⟨-, high⟩ := abs_le.mp h'.close
  -- the two numbers are one, halfway between two even whole numbers that differ by one
  have down : x - n = -(1 / 2) := by linarith
  have up : y - m = 1 / 2 := by linarith
  have one : (n : Rat) = m + 1 := by linarith
  have odd : n = m + 1 := by exact_mod_cast one
  have := h.even (by rw [down]; norm_num)
  have := h'.even (by rw [up]; norm_num)
  omega

theorem natCast (k : Nat) : Nearest k k := ⟨by simp, by simp⟩

theorem le_natCast (h : Nearest x n) (le : x ≤ k) : n ≤ k := h.mono (natCast k) le

theorem natCast_le (h : Nearest x n) (le : k ≤ x) : k ≤ n := (natCast k).mono h le

end Nearest

/-! ## Floats -/

/-- The exponent of the distance between the floats about a number. -/
def spacing (x : Rat) : Int := max (Int.log 2 x - 52) (-1074)

/-- Whether a number that is not negative is rounded to another. -/
def Rounds (x r : Rat) : Prop := ∃ n : Nat, r = n * 2 ^ spacing x ∧ Nearest (x / 2 ^ spacing x) n

section
variable {x y r s : Rat} {k : Int}

theorem zpow_le_iff (positive : 0 < x) : 2 ^ k ≤ x ↔ k ≤ Int.log 2 x := by
  exact_mod_cast Int.zpow_le_iff_le_log (b := 2) (by decide) positive

theorem lt_zpow_iff (positive : 0 < x) : x < 2 ^ k ↔ Int.log 2 x < k := by
  exact_mod_cast Int.lt_zpow_iff_log_lt (b := 2) (by decide) positive

theorem spacing_mono (positive : 0 < x) (le : x ≤ y) : spacing x ≤ spacing y :=
  max_le_max_right _ (Int.sub_le_sub_right (Int.log_mono_right positive le) _)

theorem spacing_le (positive : 0 < x) (le : x ≤ 2 ^ k) : spacing x ≤ max (k - 52) (-1074) := by
  have below : x < 2 ^ (k + 1) := le.trans_lt (zpow_lt_zpow_right₀ (by norm_num) (by omega))
  rw [lt_zpow_iff positive] at below
  unfold spacing
  omega

namespace Rounds

theorem zero : Rounds 0 0 := ⟨0, by simp, by simpa using Nearest.natCast 0⟩

theorem eq_zero (h : Rounds 0 r) : r = 0 := by
  obtain ⟨n, rfl, near⟩ := h
  have : n ≤ 0 := near.le_natCast (by simp)
  simp [Nat.le_zero.mp this]

theorem nonneg (h : Rounds x r) : 0 ≤ r := by
  obtain ⟨n, rfl, -⟩ := h
  positivity

/-- What is rounded is off by half the distance between floats at most. -/
theorem error (h : Rounds x r) : |x - r| ≤ 2 ^ spacing x / 2 := by
  obtain ⟨n, rfl, near⟩ := h
  have unit : (0 : Rat) < 2 ^ spacing x := by positivity
  have scaled : x - n * 2 ^ spacing x = (x / 2 ^ spacing x - n) * 2 ^ spacing x := by field_simp
  rw [scaled, abs_mul, abs_of_pos unit]
  linarith [mul_le_mul_of_nonneg_right near.close unit.le]

/-- A power of two is so many times as far as floats are from each other. -/
theorem zpow_eq (fine : spacing x ≤ k) : (2 : Rat) ^ k / 2 ^ spacing x = ((2 ^ (k - spacing x).toNat : Nat) : Rat) := by
  obtain ⟨n, same⟩ : ∃ n : Nat, k - spacing x = n := ⟨_, (Int.toNat_of_nonneg (by omega)).symm⟩
  rw [← zpow_sub₀ (by norm_num), same, zpow_natCast, Int.toNat_natCast, Nat.cast_pow, Nat.cast_ofNat]

theorem le_zpow (h : Rounds x r) (le : x ≤ 2 ^ k) (fine : spacing x ≤ k) : r ≤ 2 ^ k := by
  obtain ⟨n, rfl, near⟩ := h
  have unit : (0 : Rat) < 2 ^ spacing x := by positivity
  have most : n ≤ 2 ^ (k - spacing x).toNat := near.le_natCast (by
    rw [← zpow_eq fine]
    exact div_le_div_of_nonneg_right le unit.le)
  rw [← le_div_iff₀ unit, zpow_eq fine]
  exact_mod_cast most

theorem zpow_le (h : Rounds x r) (le : 2 ^ k ≤ x) (fine : spacing x ≤ k) : 2 ^ k ≤ r := by
  obtain ⟨n, rfl, near⟩ := h
  have unit : (0 : Rat) < 2 ^ spacing x := by positivity
  have least : 2 ^ (k - spacing x).toNat ≤ n := near.natCast_le (by
    rw [← zpow_eq fine]
    exact div_le_div_of_nonneg_right le unit.le)
  rw [← div_le_iff₀ unit, zpow_eq fine]
  exact_mod_cast least

/-- A number below a power of two that is not among the least is off by a half in the last place of
that power at most. -/
theorem within (h : Rounds x r) (nonneg : 0 ≤ x) (le : x ≤ 2 ^ k) (normal : -1022 ≤ k) :
    r ≤ 2 ^ k ∧ |x - r| ≤ 2 ^ (k - 53) := by
  rcases nonneg.eq_or_lt with rfl | positive
  · rw [h.eq_zero, sub_self, abs_zero]
    exact ⟨by positivity, by positivity⟩
  · have fine : spacing x ≤ k - 52 := (spacing_le positive le).trans (by omega)
    refine ⟨h.le_zpow le (by omega), h.error.trans ?_⟩
    have last : (2 : Rat) ^ spacing x ≤ 2 ^ (k - 53) * 2 := by
      rw [← zpow_add_one₀ (by norm_num)]
      exact zpow_le_zpow_right₀ (by norm_num) (by omega)
    linarith

/-- The greater of two numbers is rounded to the greater float. -/
theorem mono (h : Rounds x r) (h' : Rounds y s) (nonneg : 0 ≤ x) (le : x ≤ y) : r ≤ s := by
  rcases nonneg.eq_or_lt with rfl | positive
  · exact h.eq_zero ▸ h'.nonneg
  rcases (spacing_mono positive le).lt_or_eq with wider | same
  · -- there is a power of two between them
    have top : spacing y = Int.log 2 y - 52 := by unfold spacing at wider ⊢; omega
    have below : Int.log 2 x < Int.log 2 y := by unfold spacing at wider; omega
    have x_lt : x < 2 ^ Int.log 2 y := (lt_zpow_iff positive).mpr (by omega)
    have le_y : 2 ^ Int.log 2 y ≤ y := (zpow_le_iff (positive.trans_le le)).mpr le_rfl
    exact (h.le_zpow x_lt.le (by omega)).trans (h'.zpow_le le_y (by omega))
  · obtain ⟨n, rfl, near⟩ := h
    obtain ⟨m, rfl, near'⟩ := h'
    rw [same] at near ⊢
    have unit : (0 : Rat) < 2 ^ spacing y := by positivity
    have order : n ≤ m := near.mono near' (div_le_div_of_nonneg_right le unit.le)
    exact mul_le_mul_of_nonneg_right (by exact_mod_cast order) unit.le

end Rounds

end

end FleetCoordination.Scalar
