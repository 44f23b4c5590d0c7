import FleetCoordination.Proofs.Scalar.Exact
import FleetCoordination.Proofs.Scalar.Nearest
import FleetCoordination.Proofs.Scalar.Whole
/-!
# Products and quotients of floats

The product and the quotient of two floats are held as the exact ones are rounded: digits that are
cut off leave behind whether they come to a half, and whether there was more.
-/
namespace FleetCoordination.Scalar
open Float.Model.UnpackedFloat
open Float.Model (Format UnpackedFloat totalExponent)

/-! ## Digits -/

/-- What the round bit stands for. -/
def half (bit : Bool) : Rat := if bit then 1 / 2 else 0

/-- Whether a mantissa and its residual bits are those of a number. -/
def Holds (em : ExtendedMantissa) (x : Rat) : Prop :=
  ∃ rest : Rat, x = em.mantissa + half em.roundBit + rest ∧ 0 ≤ rest ∧ rest < 1 / 2 ∧ (em.stickyBit = false ↔ rest = 0)

namespace Holds
variable {em : ExtendedMantissa} {x : Rat}

theorem bounds (h : Holds em x) : em.mantissa ≤ x ∧ x < em.mantissa + 1 := by
  obtain ⟨rest, rfl, low, high, -⟩ := h
  cases em.roundBit <;> constructor <;> simp only [half, if_true, Bool.false_eq_true, if_false] <;> linarith

theorem shiftRightOne (h : Holds em x) : Holds em.shiftRightOne (x / 2) := by
  obtain ⟨m, round, sticky⟩ := em
  obtain ⟨rest, same, low, high, none_⟩ := h
  simp only at same none_
  have bit : 0 ≤ half round ∧ half round ≤ 1 / 2 := by cases round <;> norm_num [half]
  have split : (m : Rat) = 2 * (m / 2 : Nat) + (m % 2 : Nat) := by exact_mod_cast (Nat.div_add_mod m 2).symm
  have last : ((m % 2 : Nat) : Rat) = 2 * half (m % 2 != 0) := by
    rcases Nat.mod_two_eq_zero_or_one m with even | odd
    · simp [even, half]
    · norm_num [odd, half]
  refine ⟨(half round + rest) / 2, ?_, by linarith, by linarith, ?_⟩
  · simp only [ExtendedMantissa.shiftRightOne]
    linarith
  · simp only [ExtendedMantissa.shiftRightOne, Bool.or_eq_false_iff, none_]
    cases round
    · simp [half]
    · have more : ¬(half true + rest) / 2 = 0 := by
        simp only [half, if_true]
        linarith
      simp [more]

theorem shiftRight (h : Holds em x) (k : Nat) : Holds (em >>> k) (x / 2 ^ k) := by
  induction k with
  | zero => simpa [HShiftRight.hShiftRight, Nat.repeat] using h
  | succ k ih =>
    rw [pow_succ, ← div_div]
    exact ih.shiftRightOne

/-- The mantissa is rounded to the nearest whole number. -/
theorem nearest (h : Holds em x) : Nearest x em.roundedMantissa := by
  obtain ⟨m, round, sticky⟩ := em
  obtain ⟨rest, rfl, low, high, none_⟩ := h
  simp only at none_
  cases round <;> cases sticky <;>
    simp only [half, true_iff, false_iff, Bool.true_eq_false, Bool.false_eq_true, if_true, if_false,
      ExtendedMantissa.roundedMantissa, ExtendedMantissa.accuracy, Accuracy.roundToNearestEven] at none_ ⊢
  · simpa [none_] using Nearest.natCast m
  · -- less than a half
    have off : |(m : Rat) + 0 + rest - m| < 1 / 2 := abs_lt.mpr ⟨by linarith, by linarith⟩
    exact ⟨off.le, fun tie => (off.ne tie).elim⟩
  · -- a half
    rcases Nat.mod_two_eq_zero_or_one m with even | odd
    · have off : |(m : Rat) + 1 / 2 + rest - (m + 0 : Nat)| = 1 / 2 := by rw [none_]; norm_num
      rw [even]
      exact ⟨off.le, fun _ => even⟩
    · have off : |(m : Rat) + 1 / 2 + rest - (m + 1 : Nat)| = 1 / 2 := by rw [none_]; push_cast; norm_num
      rw [odd]
      exact ⟨off.le, fun _ => by omega⟩
  · -- more than a half
    have some_ : 0 < rest := lt_of_le_of_ne low (Ne.symm none_)
    have off : |(m : Rat) + 1 / 2 + rest - (m + 1 : Nat)| < 1 / 2 := by
      push_cast
      exact abs_lt.mpr ⟨by linarith, by linarith⟩
    exact ⟨off.le, fun tie => (off.ne tie).elim⟩

theorem ofExact (m : Nat) : Holds (.ofMantissaAndAccuracy m .exact) m :=
  ⟨0, by simp [ExtendedMantissa.ofMantissaAndAccuracy, half]⟩

/-- The digits of a quotient are those of the fraction. -/
theorem ofFraction (a : Nat) {b : Nat} (positive : 0 < b) :
    Holds (.ofMantissaAndAccuracy (a / b) (accuracyOfFraction (a % b) b)) ((a : Rat) / b) := by
  have unit : (0 : Rat) < b := by exact_mod_cast positive
  have split : (a : Rat) / b = (a / b : Nat) + (a % b : Nat) / b := by
    rw [div_eq_iff unit.ne', add_mul, div_mul_cancel₀ _ unit.ne']
    exact_mod_cast (Nat.div_add_mod' a b).symm
  rw [split]
  generalize known : a % b = rest
  have less : rest < b := known ▸ Nat.mod_lt a positive
  have short : (rest : Rat) / b < 1 := (div_lt_one unit).mpr (by exact_mod_cast less)
  by_cases none_ : rest = 0
  · simpa [accuracyOfFraction, none_] using ofExact (a / b)
  have some_ : (0 : Rat) < rest / b := div_pos (by exact_mod_cast Nat.pos_of_ne_zero none_) unit
  simp only [accuracyOfFraction, if_neg none_]
  rcases outcome : compare (2 * rest) b with _ | _ | _
  · have below : (rest : Rat) / b < 1 / 2 := by
      rw [div_lt_div_iff₀ unit (by norm_num)]
      exact_mod_cast (by have := Nat.compare_eq_lt.mp outcome; omega)
    exact ⟨rest / b, by simp [ExtendedMantissa.ofMantissaAndAccuracy, half], some_.le, below,
      by simp [ExtendedMantissa.ofMantissaAndAccuracy, some_.ne']⟩
  · have middle : (rest : Rat) / b = 1 / 2 := by
      rw [div_eq_div_iff unit.ne' (by norm_num)]
      exact_mod_cast (by have := Nat.compare_eq_eq.mp outcome; omega)
    exact ⟨0, by simp [ExtendedMantissa.ofMantissaAndAccuracy, half, middle], le_rfl, by norm_num,
      by simp [ExtendedMantissa.ofMantissaAndAccuracy]⟩
  · have above : 1 / 2 < (rest : Rat) / b := by
      rw [div_lt_div_iff₀ (by norm_num) unit]
      exact_mod_cast (by have := Nat.compare_eq_gt.mp outcome; omega)
    exact ⟨rest / b - 1 / 2, by simp [ExtendedMantissa.ofMantissaAndAccuracy, half], by linarith, by linarith,
      by simpa [ExtendedMantissa.ofMantissaAndAccuracy, sub_eq_zero] using above.ne'⟩

end Holds

/-! ## Floats -/

/-- Whether a float that is not negative is a number. -/
inductive Stands : UnpackedFloat → Rat → Prop
  | zero : Stands (.zero .positive) 0
  | finite {m : Nat} {e : Int} (positive : 0 < m) (short : m < 2 ^ 53) (low : -1074 ≤ e)
    (full : 2 ^ 52 ≤ m ∨ e = -1074) : Stands (.finite .positive m e positive) (m * 2 ^ e)

section Rounding
variable {m n : Nat} {e : Int} {acc : Accuracy} {x : Rat}

/-- The number that a rounded one is nearest to is as long as a float's mantissa, or one more. -/
theorem nearest_bounds (positive : 0 < x) (near : Nearest (x / 2 ^ spacing x) n) :
    n ≤ 2 ^ 53 ∧ (2 ^ 52 ≤ n ∨ spacing x = -1074) := by
  have unit : (0 : Rat) < 2 ^ spacing x := by positivity
  constructor
  · have below : x < 2 ^ (53 + spacing x) := by
      rw [lt_zpow_iff positive, spacing]
      omega
    refine near.le_natCast ?_
    rw [div_le_iff₀ unit]
    rw [zpow_add₀ (by norm_num)] at below
    exact_mod_cast below.le
  · by_cases least : spacing x = -1074
    · exact .inr least
    · have above : 2 ^ (52 + spacing x) ≤ x := by
        rw [zpow_le_iff positive]
        unfold spacing at least ⊢
        omega
      refine .inl (near.natCast_le ?_)
      rw [le_div_iff₀ unit]
      rw [zpow_add₀ (by norm_num)] at above
      exact_mod_cast above

theorem lt_succ_mul (e : Int) : (m : Rat) * 2 ^ e < (m + 1) * 2 ^ e :=
  mul_lt_mul_of_pos_right (lt_add_one _) (by positivity)

/-- The first digit of a number tells its size. -/
theorem log_eq (some_ : 0 < m) (low : m * (2 : Rat) ^ e ≤ x) (high : x < (m + 1) * 2 ^ e) :
    Int.log 2 x = m.log2 + e := by
  have unit : (0 : Rat) < 2 ^ e := by positivity
  have digits : (0 : Rat) < m := by exact_mod_cast some_
  have positive : 0 < x := (mul_pos digits unit).trans_le low
  have least : (2 : Rat) ^ (m.log2 + e) ≤ x := by
    refine le_trans ?_ low
    rw [zpow_add₀ (by norm_num), zpow_natCast]
    exact mul_le_mul_of_nonneg_right (by exact_mod_cast Nat.log2_self_le some_.ne') unit.le
  have most : x < 2 ^ (m.log2 + e + 1) := by
    refine high.trans_le ?_
    rw [add_right_comm, zpow_add₀ (by norm_num), ← Nat.cast_succ]
    exact mul_le_mul_of_nonneg_right (by exact_mod_cast Nat.lt_log2_self) unit.le
  rw [zpow_le_iff positive] at least
  rw [lt_zpow_iff positive] at most
  omega

/-- Digits that are not too coarse for a number tell how fine the floats are about it. -/
theorem targetExponent_eq_spacing (positive : 0 < x) (low : m * (2 : Rat) ^ e ≤ x) (high : x < (m + 1) * 2 ^ e)
    (fine : e ≤ spacing x) : Format.binary64.targetExponent (totalExponent m e) = spacing x := by
  have bits : Format.binary64.mantissaBits = 53 := by decide
  have least : Format.binary64.minExponent = -1074 := by decide
  have target : Format.binary64.targetExponent (totalExponent m e) = max (m.log2 + e - 52) (-1074) := by
    rw [Format.targetExponent, totalExponent, bits, least]
    omega
  rw [target]
  by_cases none_ : m = 0
  · -- without digits both are the least
    have below : x < 2 ^ e := by simpa [none_] using high
    rw [lt_zpow_iff positive] at below
    simp only [none_, Nat.log2_zero, spacing] at fine ⊢
    omega
  · rw [spacing, log_eq (Nat.pos_of_ne_zero none_) low high]

/-- Digits of a number that are not too coarse are rounded as the number is. -/
theorem roundWithAccuracy_rounds (positive : 0 < x) (holds : Holds (.ofMantissaAndAccuracy m acc) (x / 2 ^ e))
    (fine : e ≤ spacing x) :
    ∃ r, Rounds x r ∧ Stands (roundWithAccuracy .binary64 .positive m e acc) r := by
  have unit : (0 : Rat) < 2 ^ e := by positivity
  have unit' : (0 : Rat) < 2 ^ spacing x := by positivity
  have bounds := holds.bounds
  rw [mantissa_ofMantissaAndAccuracy, le_div_iff₀ unit, div_lt_iff₀ unit] at bounds
  have target := targetExponent_eq_spacing positive bounds.1 bounds.2 fine
  obtain ⟨k, same⟩ : ∃ k : Nat, spacing x = e + k := ⟨(spacing x - e).toNat, by omega⟩
  have amount : (spacing x - e).toNat = k := by omega
  generalize shifted : (ExtendedMantissa.ofMantissaAndAccuracy m acc) >>> k = em
  have cut : shiftToTargetExponent .binary64 m e acc = (em, spacing x) := by
    rw [shiftToTargetExponent, shiftToExponent, target, amount, shifted, same]
  have near : Nearest (x / 2 ^ spacing x) em.roundedMantissa := by
    have := (holds.shiftRight k).nearest
    rwa [shifted, div_div, ← zpow_natCast, ← zpow_add₀ (by norm_num), ← same] at this
  have low : -1074 ≤ spacing x := le_max_right ..
  refine ⟨em.roundedMantissa * 2 ^ spacing x, ⟨_, rfl, near⟩, ?_⟩
  obtain ⟨most, full⟩ := nearest_bounds positive near
  rcases most.lt_or_eq with short | long
  · simp only [roundWithAccuracy, cut, shiftToTargetExponent_short short low]
    by_cases none_ : em.roundedMantissa = 0
    · simpa [none_] using Stands.zero
    · simpa [none_] using Stands.finite (Nat.pos_of_ne_zero none_) short low full
  · simp only [roundWithAccuracy, cut, long, shiftToTargetExponent_long low]
    have same : ((2 ^ 53 : Nat) : Rat) * 2 ^ spacing x = ((2 ^ 52 : Nat) : Rat) * 2 ^ (spacing x + 1) := by
      rw [zpow_add_one₀ (by norm_num)]
      push_cast
      ring
    rw [same]
    exact .finite (by decide) (by decide) (by omega) (.inl le_rfl)

end Rounding

/-- A dividend is lengthened until the quotient has enough digits. -/
theorem divCore_eq (m : Nat) (e : Int) (m' : Nat) (e' : Int) : ∃ (k : Nat) (f : Int), e - e' = f + k ∧
    f ≤ max ((m.log2 + e) - (m'.log2 + e') - 53) (-1074) ∧
    divCore .binary64 m e m' e' = (m * 2 ^ k / m', f, accuracyOfFraction (m * 2 ^ k % m') m') := by
  have bits : Format.binary64.mantissaBits = 53 := by decide
  have least : Format.binary64.minExponent = -1074 := by decide
  obtain ⟨t, target⟩ : ∃ t, Format.binary64.targetExponent (totalExponent m e - totalExponent m' e') = t := ⟨_, rfl⟩
  have enough : t = max ((m.log2 + e) - (m'.log2 + e') - 53) (-1074) := by
    rw [← target, Format.targetExponent, totalExponent, totalExponent, bits, least]
    omega
  refine ⟨(e - e' - min (e - e') t).toNat, min (e - e') t, by omega, by omega, ?_⟩
  simp only [divCore, target, Nat.shiftLeft_eq]

/-! ## Packing -/

namespace Stands
variable {u v : UnpackedFloat} {a b r : Rat}

theorem nonneg (h : Stands u r) : 0 ≤ r := by
  cases h <;> positivity

/-- What is not too great comes back from its bits. -/
theorem unpack_pack (h : Stands u r) (bounded : r < 2 ^ (1023 : Int)) : unpack .binary64 (u.pack .binary64) = u := by
  cases h with
  | zero => exact unpack_packedZero
  | @finite m e positive short low full =>
    by_cases long : 2 ^ 52 ≤ m
    · refine Scalar.unpack_pack ⟨long, short⟩ low ?_
      have unit : (0 : Rat) < 2 ^ e := by positivity
      have least : (2 : Rat) ^ (52 + e) < 2 ^ (1023 : Int) := by
        refine lt_of_le_of_lt ?_ bounded
        rw [zpow_add₀ (by norm_num)]
        exact mul_le_mul_of_nonneg_right (by exact_mod_cast long) unit.le
      have := (zpow_lt_zpow_iff_right₀ (by norm_num)).mp least
      omega
    · obtain rfl := full.resolve_left long
      exact unpack_pack_subnormal positive (Nat.not_le.mp long)

/-- Floats compare as their numbers do. -/
theorem lt_of_compare (h : Stands u a) (h' : Stands v b) (less : u.compare v = some .lt) : a < b := by
  cases h with
  | zero =>
    cases h' with
    | zero => cases less
    | finite => positivity
  | @finite m e positive short low full =>
    cases h' with
    | zero => cases less
    | @finite m' e' positive' short' low' full' =>
      have order : e < e' ∨ e = e' ∧ m < m' := then_eq_lt.mp (Option.some.inj less)
      have unit : (0 : Rat) < 2 ^ e := by positivity
      rcases order with below | ⟨rfl, digits⟩
      · -- then the greater exponent is not the least, and its mantissa is full
        have long : 2 ^ 52 ≤ m' := full'.resolve_right (by omega)
        have next : (m : Rat) * 2 ^ e < (2 ^ 52 : Nat) * 2 ^ (e + 1) := by
          have most : (m : Rat) < (2 ^ 53 : Nat) := by exact_mod_cast short
          rw [zpow_add_one₀ (by norm_num)]
          push_cast at most ⊢
          nlinarith
        have step : (2 : Rat) ^ (e + 1) ≤ 2 ^ e' := zpow_le_zpow_right₀ (by norm_num) (by omega)
        exact next.trans_le (mul_le_mul (by exact_mod_cast long) step (by positivity) (by positivity))
      · exact mul_lt_mul_of_pos_right (by exact_mod_cast digits) unit

theorem eq_of_compare (h : Stands u a) (h' : Stands v b) (same : u.compare v = some .eq) : a = b := by
  cases h with
  | zero =>
    cases h' with
    | zero => rfl
    | finite => cases same
  | @finite m e positive short low full =>
    cases h' with
    | zero => cases same
    | @finite m' e' positive' short' low' full' =>
      have parts : (compare e e').then (compare m m') = .eq := Option.some.inj same
      rw [Ordering.then_eq_eq, Int.compare_eq_eq, Nat.compare_eq_eq] at parts
      rw [parts.1, parts.2]

theorem isNaN (h : Stands u a) : u.isNaN = false := by
  cases h <;> rfl

theorem compare_eq_lt_iff (h : Stands u a) (h' : Stands v b) : u.compare v = some .lt ↔ a < b := by
  refine ⟨h.lt_of_compare h', fun less => ?_⟩
  obtain ⟨o, compared⟩ := exists_compare h.isNaN h'.isNaN
  cases o with
  | lt => exact compared
  | eq => exact (less.ne (h.eq_of_compare h' compared)).elim
  | gt =>
    have swapped : v.compare u = some .lt := by rw [← swap_compare u v, compared]; rfl
    exact (less.asymm (h'.lt_of_compare h swapped)).elim

/-- The product of two floats is the exact one, rounded. -/
theorem mul (h : Stands u a) (h' : Stands v b) :
    ∃ r, Rounds (a * b) r ∧ Stands (UnpackedFloat.mul .binary64 u v) r := by
  cases h with
  | zero =>
    refine ⟨0, by simpa using Rounds.zero, ?_⟩
    cases h' <;> exact .zero
  | @finite m e positive short low full =>
    cases h' with
    | zero => exact ⟨0, by simpa using Rounds.zero, .zero⟩
    | @finite m' e' positive' short' low' full' =>
      have digits : 0 < m * m' := Nat.mul_pos positive positive'
      have same : (m : Rat) * 2 ^ e * (m' * 2 ^ e') = (m * m' : Nat) * 2 ^ (e + e') := by
        rw [zpow_add₀ (by norm_num)]
        push_cast
        ring
      have unit : (0 : Rat) < 2 ^ (e + e') := by positivity
      have log : Int.log 2 (((m * m' : Nat) : Rat) * 2 ^ (e + e')) = (m * m').log2 + (e + e') :=
        log_eq digits le_rfl (lt_succ_mul _)
      have fine : e + e' ≤ spacing (((m * m' : Nat) : Rat) * 2 ^ (e + e')) := by
        rw [spacing, log]
        by_cases long : 2 ^ 52 ≤ m * m'
        · have := (Nat.le_log2 digits.ne').mpr long
          omega
        · have small : e = -1074 :=
            full.resolve_left fun more => long (more.trans (Nat.le_mul_of_pos_right m positive'))
          have small' : e' = -1074 :=
            full'.resolve_left fun more => long (more.trans (Nat.le_mul_of_pos_left m' positive))
          omega
      rw [same]
      refine roundWithAccuracy_rounds (by positivity) ?_ fine
      rw [mul_div_cancel_right₀ _ unit.ne']
      exact .ofExact _

/-- The quotient of two floats is the exact one, rounded. -/
theorem div (h : Stands u a) (h' : Stands v b) (divisor : 0 < b) :
    ∃ r, Rounds (a / b) r ∧ Stands (UnpackedFloat.div .binary64 u v) r := by
  cases h' with
  | zero => exact (lt_irrefl _ divisor).elim
  | @finite m' e' positive' short' low' full' =>
    cases h with
    | zero => exact ⟨0, by simpa using Rounds.zero, .zero⟩
    | @finite m e positive short low full =>
      obtain ⟨k, f, exponents, enough, core⟩ := divCore_eq m e m' e'
      have quotient : UnpackedFloat.div .binary64 (.finite .positive m e positive) (.finite .positive m' e' positive') =
          roundWithAccuracy .binary64 .positive (m * 2 ^ k / m') f (accuracyOfFraction (m * 2 ^ k % m') m') := by
        simp only [UnpackedFloat.div, core]
        rfl
      have divisor' : (m' : Rat) ≠ 0 := by exact_mod_cast positive'.ne'
      have same : (m : Rat) * 2 ^ e / (m' * 2 ^ e') = ((m * 2 ^ k : Nat) : Rat) / m' * 2 ^ f := by
        have apart : (2 : Rat) ^ e = 2 ^ e' * (2 ^ k * 2 ^ f) := by
          rw [← zpow_natCast, ← zpow_add₀ (by norm_num), ← zpow_add₀ (by norm_num)]
          congr 1
          omega
        rw [apart]
        push_cast
        field_simp
      have unit : (0 : Rat) < 2 ^ f := by positivity
      have some_ : (0 : Rat) < m * 2 ^ e / (m' * 2 ^ e') := by positivity
      rw [quotient]
      refine roundWithAccuracy_rounds some_ ?_ ?_
      · rw [same, mul_div_cancel_right₀ _ unit.ne']
        exact .ofFraction _ positive'
      · refine enough.trans (max_le_max_right _ ?_)
        have above : 2 ^ (m.log2 + e) ≤ (m : Rat) * 2 ^ e := by
          rw [zpow_le_iff (by positivity), log_eq positive le_rfl (lt_succ_mul e)]
        have below : (m' : Rat) * 2 ^ e' ≤ 2 ^ (m'.log2 + e' + 1) := by
          refine le_of_lt ?_
          rw [lt_zpow_iff (by positivity), log_eq positive' le_rfl (lt_succ_mul e')]
          omega
        have share : 2 ^ ((m.log2 + e) - (m'.log2 + e' + 1)) ≤ (m : Rat) * 2 ^ e / (m' * 2 ^ e') := by
          rw [zpow_sub₀ (by norm_num)]
          exact div_le_div₀ (by positivity) above (by positivity) below
        rw [zpow_le_iff some_] at share
        omega

end Stands

/-! ## Floats that are not too great -/

section Float
variable {x y : Float} {a b r : Rat}

theorem Rounds.bounded {x r : Rat} (h : Rounds x r) (nonneg : 0 ≤ x) (le : x ≤ 2 ^ (1022 : Int)) :
    r < 2 ^ (1023 : Int) :=
  (h.within nonneg le (by decide)).1.trans_lt (zpow_lt_zpow_right₀ (by norm_num) (by norm_num))

theorem unpack_mul (x y : Float) : (x * y).toModel.unpack =
    unpack .binary64 (UnpackedFloat.pack .binary64 (mul .binary64 x.toModel.unpack y.toModel.unpack)) := rfl

theorem unpack_div (x y : Float) : (x / y).toModel.unpack =
    unpack .binary64 (UnpackedFloat.pack .binary64 (div .binary64 x.toModel.unpack y.toModel.unpack)) := rfl

theorem stands_mul (h : Stands x.toModel.unpack a) (h' : Stands y.toModel.unpack b)
    (bounded : a * b ≤ 2 ^ (1022 : Int)) :
    ∃ r, Rounds (a * b) r ∧ Stands (x * y).toModel.unpack r := by
  obtain ⟨r, rounds, stands⟩ := h.mul h'
  rw [unpack_mul, stands.unpack_pack (rounds.bounded (mul_nonneg h.nonneg h'.nonneg) bounded)]
  exact ⟨r, rounds, stands⟩

theorem stands_div (h : Stands x.toModel.unpack a) (h' : Stands y.toModel.unpack b) (divisor : 0 < b)
    (bounded : a / b ≤ 2 ^ (1022 : Int)) :
    ∃ r, Rounds (a / b) r ∧ Stands (x / y).toModel.unpack r := by
  obtain ⟨r, rounds, stands⟩ := h.div h' divisor
  rw [unpack_div, stands.unpack_pack (rounds.bounded (div_nonneg h.nonneg h'.nonneg) bounded)]
  exact ⟨r, rounds, stands⟩

theorem stands_zero : Stands (0.0 : Float).toModel.unpack 0 := by
  rw [unpack_zero]
  exact .zero

theorem stands_ofNat {n : Nat} (exact_ : n < 2 ^ 53) : Stands (Float.ofNat n).toModel.unpack n := by
  rcases Nat.eq_zero_or_pos n with rfl | some_
  · have zero : Float.ofNat 0 = 0.0 := by decide +kernel
    rw [zero]
    exact_mod_cast stands_zero
  have full := full_shiftLeft some_ exact_
  have digits : n.log2 < 53 := (Nat.log2_lt some_.ne').mpr exact_
  have same : (n : Rat) = (n <<< (52 - n.log2) : Nat) * 2 ^ ((n.log2 : Int) - 52) := by
    have back : ((2 ^ (52 - n.log2) : Nat) : Rat) * 2 ^ ((n.log2 : Int) - 52) = 1 := by
      rw [Nat.cast_pow, Nat.cast_ofNat, ← zpow_natCast, ← zpow_add₀ (by norm_num)]
      have none_ : ((52 - n.log2 : Nat) : Int) + (n.log2 - 52) = 0 := by omega
      rw [none_, zpow_zero]
    rw [Nat.shiftLeft_eq, Nat.cast_mul, mul_assoc, back, mul_one]
  have low : -1074 ≤ (n.log2 : Int) - 52 := by omega
  have stands := Stands.finite full.pos full.high low (.inl full.low)
  rwa [← same, ← unpack_ofNat some_ exact_] at stands

/-- A float that is a whole number stands for it. -/
theorem stands_whole (n : Nat) (whole : x = Float.ofNat n) (exact_ : n < 2 ^ 53) : Stands x.toModel.unpack n := by
  rw [whole]
  exact stands_ofNat exact_

theorem Stands.rational?_eq (h : Stands x.toModel.unpack a) : rational? x = some a := by
  unfold rational?
  generalize x.toModel.unpack = u at h
  cases h <;> rfl

theorem lt_iff_of_stands (h : Stands x.toModel.unpack a) (h' : Stands y.toModel.unpack b) : x < y ↔ a < b := by
  have less : x < y ↔ (x.toModel.unpack.compare y.toModel.unpack == some .lt) = true := decide_eq_true_iff
  rw [less, beq_iff_eq, h.compare_eq_lt_iff h']

theorem le_iff_of_stands (h : Stands x.toModel.unpack a) (h' : Stands y.toModel.unpack b) : x ≤ y ↔ a ≤ b := by
  have number : x.isNaN = false := h.isNaN
  have number' : y.isNaN = false := h'.isNaN
  rw [le_iff_not_lt, lt_iff_of_stands h' h, not_lt]
  simp only [number, number', true_and]

/-- A float above zero that is not above another stands for a number. -/
theorem exists_stands (above : 0.0 < x) (most : x ≤ y) (h : Stands y.toModel.unpack b) :
    ∃ a, Stands x.toModel.unpack a ∧ 0 < a ∧ a ≤ b := by
  have less : (UnpackedFloat.zero .positive).compare x.toModel.unpack = some .lt := by
    have : ((0.0 : Float).toModel.unpack.compare x.toModel.unpack == some .lt) = true := of_decide_eq_true above
    rwa [unpack_zero, beq_iff_eq] at this
  have compared : (x.toModel.unpack.compare y.toModel.unpack).any (·.isLE) = true := of_decide_eq_true most
  obtain ⟨a, stands, positive⟩ : ∃ a, Stands x.toModel.unpack a ∧ 0 < a := by
    have fields : Unpacks _ _ _ x.toModel.unpack := unpacks_unpack (pattern x)
    have digits : (unpackMantissa (pattern x)).toNat < 2 ^ 52 := (unpackMantissa (pattern x)).isLt
    generalize Sign.ofBitVec (unpackSign (pattern x)) = sign at fields
    generalize (unpackExponent (pattern x)).toNat = exponent at fields
    generalize (unpackMantissa (pattern x)).toNat = mantissa at fields digits
    generalize x.toModel.unpack = u at *
    generalize y.toModel.unpack = v at *
    cases fields with
    | notANumber => cases less
    | zero => cases sign <;> cases less
    | infinity =>
      cases sign
      · cases less
      · cases h <;> cases compared
    | subnormal some_ =>
      cases sign
      · cases less
      · exact ⟨_, .finite some_ (by omega) le_rfl (.inr rfl), by positivity⟩
    | normal lowest highest some_ =>
      cases sign
      · cases less
      · exact ⟨_, .finite some_ (by omega) (by omega) (.inl (Nat.le_add_right ..)), by positivity⟩
  exact ⟨a, stands, positive, (le_iff_of_stands stands h).mp most⟩

theorem ceiling_eq (h : Stands x.toModel.unpack r) : ceiling x = min ⌈r⌉₊ (Word.last 64) := by
  have count (bits : Nat) : Word.count bits = 2 ^ bits := rfl
  change floatCeiling x = _
  unfold floatCeiling
  generalize x.toModel.unpack = u at h
  cases h with
  | zero => simp
  | @finite m e positive short low full =>
    have parts : 0 < 2 ^ (-e).toNat := by positivity
    have parts' : (0 : Rat) < ((2 ^ (-e).toNat : Nat) : Rat) := by exact_mod_cast parts
    have same : (m : Rat) * 2 ^ e = (m * 2 ^ e.toNat : Nat) / (2 ^ (-e).toNat : Nat) := by
      have power : (2 : Rat) ^ e * 2 ^ (-e).toNat = 2 ^ e.toNat := by
        rw [← zpow_natCast, ← zpow_natCast, ← zpow_add₀ (by norm_num)]
        congr 1
        omega
      rw [eq_div_iff parts'.ne', mul_assoc]
      push_cast
      rw [power]
    simp only [same, count]
    congr 1
    refine eq_of_forall_ge_iff fun c => ?_
    rw [Nat.ceil_le, div_le_iff₀ parts', Nat.div_le_iff_le_mul_add_pred parts, Nat.add_le_add_iff_right,
      Nat.mul_comm _ c]
    exact_mod_cast Iff.rfl

end Float

end FleetCoordination.Scalar
