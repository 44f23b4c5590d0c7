import FleetCoordination.Proofs.Scalar.Rank
/-!
# Whole numbers as floats

A float comes back from its bits, and a whole number below `2 ^ 53` is a float of its own.
-/
namespace FleetCoordination.Scalar
open Float.Model.UnpackedFloat
open Float.Model (Format UnpackedFloat totalExponent)

/-- Whether a mantissa has all the digits that a float holds. -/
structure Full (m : Nat) : Prop where
  low : 2 ^ 52 ≤ m
  high : m < 2 ^ 53

namespace Full
variable {m : Nat}

theorem pos (h : Full m) : 0 < m := Nat.lt_of_lt_of_le (by decide) h.low

theorem log2_eq (h : Full m) : m.log2 = 52 := (Nat.log2_eq_iff h.pos.ne').mpr ⟨h.low, h.high⟩

theorem least : Full (2 ^ 52) := ⟨Nat.le_refl _, by decide⟩

end Full

/-! ## Packing -/

/-- What has a full mantissa and an exponent in range comes back from its bits. -/
theorem unpack_pack {m : Nat} {e : Int} (full : Full m) (low : -1074 ≤ e) (high : e ≤ 971) :
    unpack .binary64 (UnpackedFloat.pack .binary64 (.finite .positive m e full.pos)) =
      .finite .positive m e full.pos := by
  obtain ⟨n, rfl⟩ : ∃ n : Nat, e = n - 1074 := ⟨(e + 1074).toNat, by omega⟩
  have bias : Format.binary64.exponentBias = 1023 := by decide
  have bits : Format.binary64.mantissaBits = 53 := by decide
  have biased : ((n : Int) - 1074 + (1023 : Nat) + (52 : Nat)).toNat = n + 1 := by omega
  have exponent : (BitVec.ofNat 11 (n + 1)).toNat = n + 1 := by simp; omega
  have bounded : BitVec.ofNat 11 (n + 1) ≠ -1#11 := by
    intro same
    have := congrArg BitVec.toNat same
    simp at this
    omega
  have normal : BitVec.ofNat 11 (n + 1) ≠ 0#11 := by
    intro same
    have := congrArg BitVec.toNat same
    simp at this
    omega
  have mantissa : (1#1 ++ BitVec.ofNat 52 m).toNat = m := by
    have low := full.low
    have high := full.high
    rw [toNat_one_append, BitVec.toNat_ofNat]
    omega
  simp only [UnpackedFloat.pack, bias, bits, biased, full.log2_eq]
  rw [if_neg (by omega), if_true]
  simp only [unpack, unpackMantissa_packComponents, unpackExponent_packComponents, unpackSign_packComponents,
    Sign.ofBitVec_toBitVec, if_neg bounded, if_neg normal, mantissa, exponent, bias]
  congr 1
  omega

theorem unpack_pack_subnormal {m : Nat} (positive : 0 < m) (short : m < 2 ^ 52) :
    unpack .binary64 (UnpackedFloat.pack .binary64 (.finite .positive m (-1074) positive)) =
      .finite .positive m (-1074) positive := by
  have bias : Format.binary64.exponentBias = 1023 := by decide
  have bits : Format.binary64.mantissaBits = 53 := by decide
  have digits : m.log2 < 52 := (Nat.log2_lt positive.ne').mpr short
  have mantissa : (BitVec.ofNat 52 m).toNat = m := by
    rw [BitVec.toNat_ofNat]
    omega
  have some_ : BitVec.ofNat 52 m ≠ 0#52 := by
    intro none_
    have := congrArg BitVec.toNat none_
    simp only [mantissa, BitVec.toNat_ofNat] at this
    omega
  have infinite : (0#11 : BitVec 11) ≠ -1#11 := by decide
  simp only [UnpackedFloat.pack, bias, bits]
  rw [if_neg (by omega), if_neg (by omega)]
  simp only [unpack, unpackMantissa_packComponents, unpackExponent_packComponents, unpackSign_packComponents,
    Sign.ofBitVec_toBitVec, if_neg infinite, if_true, dif_neg some_, mantissa, bias]
  rfl

/-! ## Cutting short -/

/-- A mantissa that ends in zeros is cut short without loss. -/
theorem shiftRight_exact (m k : Nat) :
    (⟨m * 2 ^ k, false, false⟩ : ExtendedMantissa) >>> k = ⟨m, false, false⟩ := by
  induction k generalizing m with
  | zero => simp [HShiftRight.hShiftRight, Nat.repeat]
  | succ k ih =>
    have last : (⟨m * 2 ^ (k + 1), false, false⟩ : ExtendedMantissa) >>> (k + 1) =
        ((⟨m * 2 * 2 ^ k, false, false⟩ : ExtendedMantissa) >>> k).shiftRightOne := by
      rw [Nat.mul_assoc, ← Nat.pow_succ']
      rfl
    rw [last, ih (m * 2)]
    simp [ExtendedMantissa.shiftRightOne]

/-- The exponent at which a float of some digits is held. -/
theorem targetExponent_eq {m : Nat} {e : Int} (low : -1022 ≤ m.log2 + e) :
    Format.binary64.targetExponent (totalExponent m e) = m.log2 + e - 52 := by
  have bits : Format.binary64.mantissaBits = 53 := by decide
  have least : Format.binary64.minExponent = -1074 := by decide
  rw [Format.targetExponent, totalExponent, bits, least]
  omega

/-- A mantissa that is not too long is left as it is. -/
theorem shiftToTargetExponent_short {n : Nat} {e : Int} (short : n < 2 ^ 53) (low : -1074 ≤ e) :
    shiftToTargetExponent .binary64 n e .exact = (⟨n, false, false⟩, e) := by
  have bits : Format.binary64.mantissaBits = 53 := by decide
  have least : Format.binary64.minExponent = -1074 := by decide
  have digits : n.log2 < 53 := by
    by_cases none_ : n = 0
    · simp [none_]
    · exact (Nat.log2_lt none_).mpr short
  have amount : (Format.binary64.targetExponent (totalExponent n e) - e).toNat = 0 := by
    rw [Format.targetExponent, totalExponent, bits, least]
    omega
  simp [shiftToTargetExponent, shiftToExponent, amount, ExtendedMantissa.ofMantissaAndAccuracy,
    HShiftRight.hShiftRight, Nat.repeat]

/-- A mantissa that rounding has made too long is cut by the zero that it ends in. -/
theorem shiftToTargetExponent_long {e : Int} (low : -1074 ≤ e) :
    shiftToTargetExponent .binary64 (2 ^ 53) e .exact = (⟨2 ^ 52, false, false⟩, e + 1) := by
  have digits : (2 ^ 53).log2 = 53 := Nat.log2_two_pow
  have target : Format.binary64.targetExponent (totalExponent (2 ^ 53) e) = e + 1 := by
    rw [targetExponent_eq (by rw [digits]; omega), digits]
    omega
  have one : (e + 1 - e).toNat = 1 := by omega
  simp only [shiftToTargetExponent, shiftToExponent, target, one, ExtendedMantissa.ofMantissaAndAccuracy]
  exact congrArg (·, e + 1) (shiftRight_exact (2 ^ 52) 1)

theorem mantissa_ofMantissaAndAccuracy (m : Nat) (acc : Accuracy) :
    (ExtendedMantissa.ofMantissaAndAccuracy m acc).mantissa = m := by
  cases acc with
  | exact => rfl
  | inexact o => cases o <;> rfl

/-! ## Whole numbers -/

theorem full_shiftLeft {n : Nat} (some_ : 0 < n) (exact_ : n < 2 ^ 53) : Full (n <<< (52 - n.log2)) := by
  have digits : n.log2 < 53 := (Nat.log2_lt some_.ne').mpr exact_
  have whole : 2 ^ n.log2 * 2 ^ (52 - n.log2) = 2 ^ 52 := by
    rw [← Nat.pow_add]
    congr 1
    omega
  rw [Nat.shiftLeft_eq]
  constructor
  · rw [← whole]
    exact Nat.mul_le_mul_right _ (Nat.log2_self_le some_.ne')
  · have more : 2 ^ (n.log2 + 1) * 2 ^ (52 - n.log2) = 2 ^ 53 := by
      rw [Nat.pow_succ, Nat.mul_right_comm, whole, ← Nat.pow_succ]
    rw [← more]
    exact Nat.mul_lt_mul_of_pos_right Nat.lt_log2_self (by positivity)

/-- A full mantissa that is lengthened by zeros is rounded to itself. -/
theorem roundWithAccuracy_exact {m : Nat} {e : Int} (full : Full m) (low : -1074 ≤ e) (k : Nat) :
    roundWithAccuracy .binary64 .positive (m * 2 ^ k) (e - k) .exact = .finite .positive m e full.pos := by
  have digits : (m * 2 ^ k).log2 = 52 + k := by
    refine (Nat.log2_eq_iff (Nat.mul_pos full.pos (by positivity)).ne').mpr ⟨?_, ?_⟩
    · rw [Nat.pow_add]
      exact Nat.mul_le_mul_right _ full.low
    · rw [Nat.add_right_comm, Nat.pow_add]
      exact Nat.mul_lt_mul_of_pos_right full.high (by positivity)
  have target : Format.binary64.targetExponent (totalExponent (m * 2 ^ k) (e - k)) = e := by
    rw [targetExponent_eq (by rw [digits]; omega), digits]
    omega
  have cut : shiftToTargetExponent .binary64 (m * 2 ^ k) (e - k) .exact = (⟨m, false, false⟩, e) := by
    simp [shiftToTargetExponent, shiftToExponent, target, ExtendedMantissa.ofMantissaAndAccuracy, shiftRight_exact]
  have kept : (⟨m, false, false⟩ : ExtendedMantissa).roundedMantissa = m := rfl
  simp [roundWithAccuracy, cut, kept, shiftToTargetExponent_short full.high low, full.pos.ne']

/-- One as a float. -/
def unit : UnpackedFloat := .finite .positive (2 ^ 52) (-52) Full.least.pos

theorem mul_unit {m : Nat} {e : Int} (full : Full m) (low : -1074 ≤ e) :
    mul .binary64 (.finite .positive m e full.pos) unit = .finite .positive m e full.pos :=
  roundWithAccuracy_exact full low 52

/-- A whole number that has no more digits than a float holds is one. -/
theorem unpack_ofNat {n : Nat} (some_ : 0 < n) (exact_ : n < 2 ^ 53) :
    (Float.ofNat n).toModel.unpack =
      .finite .positive (n <<< (52 - n.log2)) (n.log2 - 52) (full_shiftLeft some_ exact_).pos := by
  have full := full_shiftLeft some_ exact_
  have digits : n.log2 < 53 := (Nat.log2_lt some_.ne').mpr exact_
  have rounded : UnpackedFloat.ofNat .binary64 n =
      .finite .positive (n <<< (52 - n.log2)) (n.log2 - 52) full.pos := by
    have target : Format.binary64.targetExponent (totalExponent n 0) = n.log2 - 52 := by
      rw [targetExponent_eq (by omega), Int.add_zero]
    have amount : (0 - ((n.log2 : Int) - 52)).toNat = 52 - n.log2 := by omega
    have positive : compare (n : Int) 0 = .gt := Int.compare_eq_gt.mpr (by omega)
    have least : (-1074 : Int) ≤ n.log2 - 52 := by omega
    have shifted : (0 : Int) - (52 - n.log2 : Nat) = n.log2 - 52 := by omega
    have same := roundWithAccuracy_exact full least 0
    simp only [Nat.pow_zero, Nat.mul_one, Int.natCast_zero, Int.sub_zero] at same
    simp only [UnpackedFloat.ofNat, ofInt, UnpackedFloat.normalize, positive, UnpackedFloat.round, Int.toNat_natCast,
      target, decreaseExponent, amount, shifted, same]
  have fast : Float.ofNat n = n.toUInt64.toFloat * Float.ofBits 0x3FF0000000000000 := by
    simp only [Float.ofNat, OfScientific.ofScientific, Float.ofScientific]
    rw [dif_pos ⟨exact_, by decide⟩]
    rfl
  have word : n.toUInt64.toNat = n := Nat.mod_eq_of_lt (by omega)
  have one : (Float.ofBits 0x3FF0000000000000).toModel.unpack = unit := rfl
  have held : n.toUInt64.toFloat.toModel.unpack =
      .finite .positive (n <<< (52 - n.log2)) (n.log2 - 52) full.pos := by
    change unpack .binary64 (UnpackedFloat.pack .binary64 (UnpackedFloat.ofNat .binary64 n.toUInt64.toNat)) = _
    rw [word, rounded, unpack_pack full (by omega) (by omega)]
  rw [fast]
  change unpack .binary64 (UnpackedFloat.pack .binary64
    (mul .binary64 n.toUInt64.toFloat.toModel.unpack (Float.ofBits 0x3FF0000000000000).toModel.unpack)) = _
  rw [held, one, mul_unit full (by omega), unpack_pack full (by omega) (by omega)]

theorem unpack_zero : (0.0 : Float).toModel.unpack = .zero .positive := by
  have zero : (0.0 : Float) = Float.ofBits 0 := by decide +kernel
  rw [zero]
  rfl

end FleetCoordination.Scalar
