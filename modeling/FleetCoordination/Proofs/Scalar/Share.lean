import FleetCoordination.Proofs.Scalar.Rounding
/-!
# Shares as floats

The quotient of two whole numbers below `2 ^ 53` is rounded to one only if they are equal: the share
of some in a total is a float between zero and one, and one just for all of them.
-/
namespace FleetCoordination.Scalar

/-- A share is one just if it is rounded from one. -/
theorem rounds_share {a b : Nat} {r : Rat} (most : a ≤ b) (some_ : 0 < b) (exact_ : b < 2 ^ 53)
    (h : Rounds ((a : Rat) / b) r) : r ≤ 1 ∧ (r = 1 ↔ a = b) := by
  have total : (0 : Rat) < b := by exact_mod_cast some_
  have part : (a : Rat) / b ≤ 2 ^ (0 : Int) := by
    rw [zpow_zero, div_le_one total]
    exact_mod_cast most
  obtain ⟨least, off⟩ := h.within (by positivity) part (by decide)
  rw [zpow_zero] at least
  refine ⟨least, fun one => ?_, fun all => ?_⟩
  · -- less than all is further from one than a number is from the float that it is rounded to
    by_contra part
    have next : (a : Rat) + 1 ≤ b := by exact_mod_cast lt_of_le_of_ne most part
    have missing : 1 / (b : Rat) ≤ 1 - a / b := by
      rw [one_sub_div total.ne', div_le_div_iff_of_pos_right total]
      linarith
    have coarse : 2 ^ (0 - 53 : Int) < 1 / (b : Rat) := by
      rw [lt_div_iff₀ total]
      have : (b : Rat) < 2 ^ 53 := by exact_mod_cast exact_
      norm_num
      linarith
    rw [one] at off
    linarith [neg_le_of_abs_le off]
  · have whole : (a : Rat) / b = 2 ^ (0 : Int) := by rw [all, div_self total.ne', zpow_zero]
    have above := h.zpow_le whole.ge (by simp [whole, spacing])
    rw [zpow_zero] at above
    exact least.antisymm above

/-- The share of some in a total is between zero and one, and one just if it is all of them. -/
theorem share_unit {a b : Nat} (most : a ≤ b) (some_ : 0 < b) (exact_ : b < 2 ^ 53) :
    0.0 ≤ Float.ofNat a / Float.ofNat b ∧ Float.ofNat a / Float.ofNat b ≤ 1.0 ∧
      (Float.ofNat a / Float.ofNat b = 1.0 ↔ a = b) := by
  have total : (0 : Rat) < b := by exact_mod_cast some_
  have part : (a : Rat) / b ≤ 1 := (div_le_one total).mpr (by exact_mod_cast most)
  have bounded : (a : Rat) / b ≤ 2 ^ (1022 : Int) := part.trans (one_le_zpow₀ (by norm_num) (by decide))
  obtain ⟨r, rounds, share⟩ := stands_div (stands_ofNat (by omega)) (stands_ofNat exact_) total bounded
  obtain ⟨least, all⟩ := rounds_share most some_ exact_ rounds
  have one : Stands (1.0 : Float).toModel.unpack 1 := by exact_mod_cast stands_whole 1 (by decide +kernel) (by decide)
  refine ⟨(le_iff_of_stands stands_zero share).mpr share.nonneg, (le_iff_of_stands share one).mpr least, ?_⟩
  rw [← all]
  constructor
  · intro all
    rw [all] at share
    exact Option.some.inj (share.rational?_eq.symm.trans one.rational?_eq)
  · rintro rfl
    have above : 0.0 < Float.ofNat a / Float.ofNat b := (lt_iff_of_stands stands_zero share).mpr one_pos
    exact eq_of_le_of_le above ((le_iff_of_stands share one).mpr le_rfl) ((le_iff_of_stands one share).mpr le_rfl)

end FleetCoordination.Scalar
