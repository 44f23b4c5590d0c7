import Mathlib
import FleetCoordination.Scalar
/-!
# Ranks of floats

The bits of a float without its sign, taken as a whole number with the sign put in front,
rise with its value. So the rank of floats orders numbers as `<` does, and tells no more of
them apart than the two zeros.
-/
namespace FleetCoordination.Scalar
open Float.Model.UnpackedFloat
open Float.Model (Format UnpackedFloat)

/-! ## Bits -/

/-- What a sign, an exponent and a mantissa stand for in bits. -/
inductive Unpacks (sign : Sign) : Nat → Nat → UnpackedFloat → Prop
  | notANumber {e m : Nat} : Unpacks sign e m .notANumber
  | infinity : Unpacks sign 2047 0 (.infinity sign)
  | zero : Unpacks sign 0 0 (.zero sign)
  | subnormal {m : Nat} (positive : 0 < m) : Unpacks sign 0 m (.finite sign m (-1074) positive)
  | normal {e m : Nat} (low : 0 < e) (high : e < 2047) (positive : 0 < 2 ^ 52 + m) :
    Unpacks sign e m (.finite sign (2 ^ 52 + m) (e - 1075) positive)

theorem toNat_one_append {w : Nat} (v : BitVec w) : (1#1 ++ v).toNat = 2 ^ w + v.toNat := by
  rw [BitVec.toNat_append, ← Nat.shiftLeft_add_eq_or_of_lt v.isLt]
  simp [Nat.shiftLeft_eq]

section Bits
variable (b : BitVec Format.binary64.numBits)

theorem toNat_fields :
    b.toNat = (unpackSign b).toNat * 2 ^ 63 + (unpackExponent b).toNat * 2 ^ 52 + (unpackMantissa b).toNat := by
  have bound : b.toNat < 2 ^ 64 := b.isLt
  simp only [unpackSign, unpackExponent, unpackMantissa, BitVec.toNat_cast, BitVec.extractLsb_toNat,
    Nat.shiftRight_eq_div_pow, Nat.reducePow, Nat.reduceAdd, Nat.reduceSub] at *
  omega

theorem unpacks_unpack :
    Unpacks (.ofBitVec (unpackSign b)) (unpackExponent b).toNat (unpackMantissa b).toNat (unpack .binary64 b) := by
  have bias : (Format.binary64.exponentBias + Format.binary64.mantissaBitsWithoutImplicit : Int) = 1075 := by decide
  rw [unpack, bias]
  split
  · next infinite =>
    split
    · next zero =>
      rw [infinite, zero]
      exact .infinity
    · exact .notANumber
  next bounded =>
  split
  · next least =>
    rw [least]
    split
    · next zero =>
      rw [zero]
      exact .zero
    · exact .subnormal _
  · next normal =>
    have low : 0 < (unpackExponent b).toNat := by
      simpa [BitVec.toNat_eq, Nat.pos_iff_ne_zero] using normal
    have high : (unpackExponent b).toNat < 2047 := by
      have width : (unpackExponent b).toNat < 2 ^ 11 := (unpackExponent b).isLt
      have greatest : (-1#11).toNat = 2047 := rfl
      simp only [BitVec.toNat_eq] at bounded
      omega
    simp only [toNat_one_append]
    exact .normal low high _

end Bits

/-! ## Numbers -/

theorem then_eq_lt {e e' : Int} {m m' : Nat} :
    (compare e e').then (compare m m') = .lt ↔ e < e' ∨ e = e' ∧ m < m' := by
  rw [Ordering.then_eq_lt, Int.compare_eq_lt, Int.compare_eq_eq, Nat.compare_eq_lt]

/-- Numbers compare as their exponents and mantissas do, put side by side behind the sign. -/
theorem Unpacks.compare_eq_lt {s s' : Sign} {e m e' m' : Nat} {u v : UnpackedFloat} (h : Unpacks s e m u)
    (h' : Unpacks s' e' m' v) (hm : m < 2 ^ 52) (hm' : m' < 2 ^ 52) (number : u.isNaN = false)
    (number' : v.isNaN = false) :
    u.compare v = some .lt ↔ s.apply (e * 2 ^ 52 + m) < s'.apply (e' * 2 ^ 52 + m') := by
  have signs : compare Sign.negative Sign.positive = .lt := rfl
  cases h <;> cases h' <;> cases s <;> cases s' <;>
    simp only [UnpackedFloat.compare, Sign.apply, Option.some.injEq, isNaN, Bool.true_eq_false, signs, then_eq_lt,
      Ordering.swap_eq_lt, Ordering.then_eq_gt, Int.compare_eq_gt, Nat.compare_eq_gt, Int.compare_eq_eq, reduceCtorEq,
      Int.lt_irrefl, true_and, false_or, false_iff, true_iff] at * <;>
    omega

/-- The bits of a float without its sign, with the sign put in front. -/
def signedBits (b : BitVec Format.binary64.numBits) : Int :=
  if b.toNat < Word.count 63 then b.toNat else (Word.count 63 : Int) - b.toNat

theorem apply_eq_signedBits (b : BitVec Format.binary64.numBits) :
    (Sign.ofBitVec (unpackSign b)).apply ((unpackExponent b).toNat * 2 ^ 52 + (unpackMantissa b).toNat) =
      signedBits b := by
  have fields := toNat_fields b
  have exponent : (unpackExponent b).toNat < 2 ^ 11 := (unpackExponent b).isLt
  have mantissa : (unpackMantissa b).toNat < 2 ^ 52 := (unpackMantissa b).isLt
  have half : Word.count 63 = 2 ^ 63 := rfl
  rw [signedBits, half]
  rcases BitVec.eq_zero_or_eq_one (unpackSign b) with positive | negative
  · rw [positive, BitVec.toNat_ofNat] at fields
    rw [positive, if_pos (by omega), fields]
    simp [Sign.ofBitVec, Sign.apply]
  · rw [negative, BitVec.toNat_ofNat] at fields
    rw [negative, if_neg (by omega), fields]
    simp [Sign.ofBitVec, Sign.apply]
    omega

/-! ## Floats -/

def pattern (x : Float) : BitVec Format.binary64.numBits := x.toBits.toBitVec

variable {a b c : Float}

theorem numbers_of_compare {u v : UnpackedFloat} {o : Ordering} (h : u.compare v = some o) :
    u.isNaN = false ∧ v.isNaN = false := by
  cases u <;> cases v <;> first | exact ⟨rfl, rfl⟩ | cases h

theorem numbers_of_le (h : a ≤ b) : a.isNaN = false ∧ b.isNaN = false := by
  have compared : ((unpack .binary64 (pattern a)).compare (unpack .binary64 (pattern b))).any (·.isLE) = true :=
    of_decide_eq_true h
  obtain ⟨o, compared, -⟩ := (Option.any_eq_true ..).mp compared
  exact numbers_of_compare compared

/-- One float is less than another when both are numbers and its bits say so. -/
theorem lt_iff : a < b ↔ a.isNaN = false ∧ b.isNaN = false ∧ signedBits (pattern a) < signedBits (pattern b) := by
  have less : a < b ↔ ((unpack .binary64 (pattern a)).compare (unpack .binary64 (pattern b)) == some .lt) = true :=
    decide_eq_true_iff
  have compares (number : a.isNaN = false) (number' : b.isNaN = false) :
      (unpack .binary64 (pattern a)).compare (unpack .binary64 (pattern b)) = some .lt ↔
        signedBits (pattern a) < signedBits (pattern b) := by
    rw [← apply_eq_signedBits, ← apply_eq_signedBits]
    exact (unpacks_unpack _).compare_eq_lt (unpacks_unpack _) (unpackMantissa (pattern a)).isLt
      (unpackMantissa (pattern b)).isLt number number'
  rw [less, beq_iff_eq]
  refine ⟨fun h => ?_, fun ⟨number, number', h⟩ => (compares number number').mpr h⟩
  obtain ⟨number, number'⟩ := numbers_of_compare h
  exact ⟨number, number', (compares number number').mp h⟩

/-- Comparing two floats the other way round turns the outcome round. -/
theorem swap_compare (u v : UnpackedFloat) : (u.compare v).map Ordering.swap = v.compare u := by
  cases u with
  | notANumber => cases v <;> rfl
  | infinity s => cases s <;> rcases v with ⟨_ | _⟩ | _ | ⟨_ | _⟩ | ⟨_ | _, _, _, _⟩ <;> rfl
  | zero s => cases s <;> rcases v with ⟨_ | _⟩ | _ | ⟨_ | _⟩ | ⟨_ | _, _, _, _⟩ <;> rfl
  | finite s m e positive =>
    cases s <;> rcases v with ⟨_ | _⟩ | _ | ⟨_ | _⟩ | ⟨_ | _, m', e', positive'⟩ <;>
      simp [UnpackedFloat.compare, Ordering.swap_then, Int.compare_swap, Nat.compare_swap]

theorem exists_compare {u v : UnpackedFloat} (number : u.isNaN = false) (number' : v.isNaN = false) :
    ∃ o, u.compare v = some o := by
  rcases u with ⟨_ | _⟩ | _ | ⟨_ | _⟩ | ⟨_ | _, _, _, _⟩ <;> rcases v with ⟨_ | _⟩ | _ | ⟨_ | _⟩ | ⟨_ | _, _, _, _⟩ <;>
    first | exact ⟨_, rfl⟩ | simp [isNaN] at number number'

/-- One float is at most another when both are numbers and the other is not less. -/
theorem le_iff_not_lt : a ≤ b ↔ a.isNaN = false ∧ b.isNaN = false ∧ ¬b < a := by
  have most : a ≤ b ↔ ((unpack .binary64 (pattern a)).compare (unpack .binary64 (pattern b))).any (·.isLE) = true :=
    decide_eq_true_iff
  have less : b < a ↔ (unpack .binary64 (pattern b)).compare (unpack .binary64 (pattern a)) = some .lt :=
    decide_eq_true_iff.trans beq_iff_eq
  have outcome {o : Ordering}
      (compared : (unpack .binary64 (pattern a)).compare (unpack .binary64 (pattern b)) = some o) :
      a ≤ b ↔ ¬b < a := by
    rw [most, less, ← swap_compare (unpack .binary64 (pattern a)), compared]
    cases o <;> simp
  constructor
  · intro h
    obtain ⟨number, number'⟩ := numbers_of_le h
    obtain ⟨o, compared⟩ := exists_compare number number'
    exact ⟨number, number', (outcome compared).mp h⟩
  · rintro ⟨number, number', above⟩
    obtain ⟨o, compared⟩ := exists_compare number number'
    exact (outcome compared).mpr above

theorem le_iff : a ≤ b ↔ a.isNaN = false ∧ b.isNaN = false ∧ signedBits (pattern a) ≤ signedBits (pattern b) := by
  rw [le_iff_not_lt]
  refine and_congr_right fun number => and_congr_right fun number' => ?_
  simp only [lt_iff, number, number', true_and, Int.not_lt]

theorem le_self (number : a.isNaN = false) : a ≤ a := le_iff.mpr ⟨number, number, Int.le_refl _⟩

theorem le_of_le_of_le (h : a ≤ b) (h' : b ≤ c) : a ≤ c := by
  rw [le_iff] at h h' ⊢
  exact ⟨h.1, h'.2.1, Int.le_trans h.2.2 h'.2.2⟩

/-- What is less than a number is less than any number that is not less than that. -/
theorem lt_of_lt_of_not_lt (less : a < b) (above : ¬c < b) (number : c.isNaN = false) : a < c := by
  obtain ⟨ha, hb, less⟩ := lt_iff.mp less
  refine lt_iff.mpr ⟨ha, number, Int.lt_of_lt_of_le less (Int.not_lt.mp fun below => above ?_)⟩
  exact lt_iff.mpr ⟨number, hb, below⟩

theorem eq_iff_toNat_pattern : a = b ↔ (pattern a).toNat = (pattern b).toNat := by
  rw [← Float.toBits_inj, ← UInt64.toBitVec_inj, ← BitVec.toNat_inj]
  rfl

/-- Only the two zeros are numbers that are not told apart. -/
theorem eq_of_le_of_le (above : 0.0 < a) (h : a ≤ b) (h' : b ≤ a) : a = b := by
  have zero : signedBits (pattern 0.0) = 0 := by decide +kernel
  have least := (lt_iff.mp above).2.2
  have first := (le_iff.mp h).2.2
  have second := (le_iff.mp h').2.2
  have half : Word.count 63 = 9223372036854775808 := rfl
  rw [eq_iff_toNat_pattern]
  rw [zero] at least
  simp only [signedBits, half] at least first second
  split at first <;> split at first <;> omega

theorem floatRank_eq (x : Float) :
    floatRank x = if (pattern x).toNat < Word.count 63 then signedBits (pattern x) else signedBits (pattern x) - 1 := by
  have half : Word.count 63 = Word.last 63 + 1 := rfl
  have bits : x.toBits.toNat = (pattern x).toNat := rfl
  rw [floatRank, signedBits, bits, half]
  split <;> omega

theorem order_eq_eq : order a b = .eq ↔ a = b := by
  refine Int.compare_eq_eq.trans (Iff.trans ?_ eq_iff_toNat_pattern.symm)
  have half : Word.count 63 = 9223372036854775808 := rfl
  rw [floatRank_eq, floatRank_eq, signedBits, signedBits, half]
  split <;> split <;> omega

/-- Of two numbers the lesser has the lower rank, and of the two zeros minus zero. -/
theorem order_eq_lt (ha : a.isNaN = false) (hb : b.isNaN = false) :
    order a b = .lt ↔ a < b ∨ a = -0.0 ∧ b = 0.0 := by
  have half : Word.count 63 = 9223372036854775808 := rfl
  have minus : (pattern (-0.0)).toNat = 9223372036854775808 := by decide +kernel
  have plus : (pattern 0.0).toNat = 0 := by decide +kernel
  have less : a < b ↔ signedBits (pattern a) < signedBits (pattern b) :=
    ⟨fun h => (lt_iff.mp h).2.2, fun h => lt_iff.mpr ⟨ha, hb, h⟩⟩
  refine Int.compare_eq_lt.trans ?_
  rw [less, eq_iff_toNat_pattern, eq_iff_toNat_pattern, minus, plus, floatRank_eq, floatRank_eq, signedBits, signedBits,
    half]
  split <;> split <;> omega

theorem isNaN_of_isFinite (h : a.isFinite = true) : a.isNaN = false := by
  have finite : a.toModel.unpack.isFinite = true := h
  change a.toModel.unpack.isNaN = false
  cases u : a.toModel.unpack <;> simp_all [UnpackedFloat.isFinite, UnpackedFloat.isNaN]

theorem le_of_floatRank_le (number : a.isNaN = false) (number' : b.isNaN = false) (h : floatRank a ≤ floatRank b) :
    a ≤ b := by
  refine le_iff_not_lt.mpr ⟨number, number', fun below => ?_⟩
  have := Int.compare_eq_lt.mp ((order_eq_lt number' number).mpr (.inl below))
  omega

end FleetCoordination.Scalar
