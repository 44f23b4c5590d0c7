import Mathlib.Data.List.TakeWhile
import FleetCoordination.Proofs.Calendar
/-!
# Texts of timestamps

A timestamp is read as it was written: its numbers have a fixed number of digits, and the
fraction has three, six or nine.
-/
namespace FleetCoordination.Timestamp

/-! ## Numerals -/

/-- Digits of a number, as many as given. -/
structure Numeral (width value : Nat) (cs : List Char) : Prop where
  width : cs.length = width
  digits : ∀ c ∈ cs, c.isDigit = true
  value : Json.decimalValue cs = value

theorem numeral_zeroFilled {width n : Nat} (some_ : 0 < width) (fits : n < 10 ^ width) :
    Numeral width n (Decimal.zeroFilled width n).toList := by
  have short : (Nat.toDigits 10 n).length ≤ width := (Nat.length_toDigits_le_iff (by decide) some_).mpr fits
  simp only [Decimal.zeroFilled, Decimal.digits, Decimal.zeros, String.toList_ofList]
  refine ⟨by simp; omega, ?_, ?_⟩
  · intro c hc
    rcases List.mem_append.mp hc with zero | digit
    · rw [List.eq_of_mem_replicate zero]
      rfl
    · exact Nat.isDigit_of_mem_toDigits (by decide) (by decide) digit
  · have zeros (k : Nat) : Json.decimalValue (List.replicate k '0') = 0 := by
      induction k with
      | zero => rfl
      | succ k ih => exact ih
    have value : Json.decimalValue (List.replicate (width - (Nat.toDigits 10 n).length) '0' ++ Nat.toDigits 10 n) =
        Nat.ofDigitChars 10 (Nat.toDigits 10 n) (Json.decimalValue (List.replicate _ '0')) := List.foldl_append ..
    rw [value, zeros, Nat.ofDigitChars_toDigits (by decide) (by decide)]

theorem isBlank_of_isDigit {c : Char} (digit : c.isDigit = true) : Text.isBlank c = false := by
  simp only [Char.isDigit, Bool.and_eq_true, decide_eq_true_eq] at digit
  have low : 48 ≤ c.toNat := digit.1
  have high : c.toNat ≤ 57 := digit.2
  simp [Text.isBlank]
  omega

namespace Numeral
variable {width n : Nat} {cs : List Char} (h : Numeral width n cs) (rest : List Char)
include h

theorem trimLeft (some_ : 0 < width) : Text.trimLeft (cs ++ rest) = cs ++ rest := by
  cases cs with
  | nil => exact absurd h.width (Nat.ne_of_lt some_)
  | cons c cs =>
    have digit := isBlank_of_isDigit (h.digits c (.head _))
    simp [Text.trimLeft, digit]

theorem number? (some_ : 0 < width) : Timestamp.number? width (cs ++ rest) = some (n, rest) := by
  have taken : (cs ++ rest).take width = cs := by rw [← h.width, List.take_left]
  have digits : cs.takeWhile Char.isDigit = cs := List.takeWhile_eq_self_iff.mpr h.digits
  have full : cs.isEmpty = false := by
    cases cs with
    | nil => exact absurd h.width (Nat.ne_of_lt some_)
    | cons => rfl
  simp [Timestamp.number?, h.trimLeft rest some_, taken, digits, full, h.value]

/-- The digits of a fraction end where the zone begins. -/
theorem fraction? (some_ : 0 < width) (fits : width ≤ 9) :
    Timestamp.fraction? ('.' :: (cs ++ 'Z' :: rest)) = some (n * 10 ^ (9 - width), 'Z' :: rest) := by
  have digits : (cs ++ 'Z' :: rest).takeWhile Char.isDigit = cs := by
    rw [List.takeWhile_append_of_pos h.digits]
    simp
  have full : cs.isEmpty = false := by
    cases cs with
    | nil => exact absurd h.width (Nat.ne_of_lt some_)
    | cons => rfl
  have kept : cs.take 9 = cs := List.take_of_length_le (h.width ▸ fits)
  simp [Timestamp.fraction?, digits, full, kept, h.value, h.width]

end Numeral

theorem Numeral.year? {n : Nat} {cs : List Char} (h : Numeral 4 n cs) (rest : List Char) :
    Timestamp.year? (cs ++ rest) = some ((n : Int), rest) := by
  have number := h.number? rest (by decide)
  have trimmed := h.trimLeft rest (by decide)
  cases cs with
  | nil => cases h.width
  | cons c cs =>
    have digit := h.digits c (.head _)
    unfold Timestamp.year?
    rw [trimmed]
    split
    · next same =>
      cases same
      cases digit
    · next same =>
      cases same
      cases digit
    · rw [number]
      rfl

/-! ## Texts -/

theorem fraction?_fractionText {nanos : Nat} (fits : nanos < 1000000000) :
    fraction? ((fractionText nanos).toList ++ ['Z']) = some (nanos, ['Z']) := by
  have written {width n : Nat} (some_ : 0 < width) (short : width ≤ 9) (small : n < 10 ^ width) :
      fraction? (("." ++ Decimal.zeroFilled width n).toList ++ ['Z']) = some (n * 10 ^ (9 - width), ['Z']) := by
    simpa using (numeral_zeroFilled some_ small).fraction? [] some_ short
  unfold fractionText
  split
  · next zero => simp [zero, fraction?]
  split
  · rw [written (by decide) (by decide) (by omega)]
    simp only [Option.some.injEq, Prod.mk.injEq, and_true]
    omega
  split
  · rw [written (by decide) (by decide) (by omega)]
    simp only [Option.some.injEq, Prod.mk.injEq, and_true]
    omega
  · rw [written (by decide) (by decide) fits]
    simp

/-- A timestamp of a year with four digits, that has a leap second at the end of a minute only. -/
structure Plain (t : Timestamp) : Prop where
  year : 0 ≤ (date (t.seconds.fdiv 86400)).1 ∧ (date (t.seconds.fdiv 86400)).1 ≤ 9999
  nanos : t.nanos < 1000000000 ∨ t.nanos < 2000000000 ∧ t.seconds.fmod 60 = 59

/-- Numbers of the right width are read as they were written. -/
theorem parse?_numbers {year month day hour minute second nanos : Nat} {t : Timestamp} (year₂ : year < 10000)
    (month₁ : 1 ≤ month) (month₂ : month ≤ 12) (day₁ : 1 ≤ day) (day₂ : day ≤ daysInMonth year month)
    (hour₂ : hour < 24) (minute₂ : minute < 60) (second₂ : second ≤ 60) (nanos₂ : nanos < 1000000000)
    (seconds : dayNumber year month day * 86400 + hour * 3600 + minute * 60 +
      (if second = 60 then 59 else second : Nat) = t.seconds)
    (fraction : (if second = 60 then 1000000000 + nanos else nanos) = t.nanos)
    (range : yearInRange (date (t.seconds.fdiv 86400)).1 = true) :
    parse? (Decimal.zeroFilled 4 year ++ "-" ++ Decimal.zeroFilled 2 month ++ "-" ++ Decimal.zeroFilled 2 day ++ "T" ++
      Decimal.zeroFilled 2 hour ++ ":" ++ Decimal.zeroFilled 2 minute ++ ":" ++ Decimal.zeroFilled 2 second ++
      fractionText nanos ++ "Z") = some t := by
  have two {n : Nat} (fits : n < 100) (rest : List Char) :
      number? 2 ((Decimal.zeroFilled 2 n).toList ++ rest) = some (n, rest) :=
    (numeral_zeroFilled (by decide) fits).number? rest (by decide)
  have four (rest : List Char) : year? ((Decimal.zeroFilled 4 year).toList ++ rest) = some ((year : Int), rest) :=
    (numeral_zeroFilled (by decide) year₂).year? rest
  have dash (rest : List Char) : literal? '-' ("-".toList ++ rest) = some rest := rfl
  have colon (rest : List Char) : literal? ':' (":".toList ++ rest) = some rest := rfl
  have days : daysInMonth year month ≤ 31 := by
    unfold daysInMonth
    split <;> (try split) <;> decide
  have known : yearInRange year = true := by
    simp [yearInRange]
    omega
  have separator (rest : List Char) : timeSeparator? ("T".toList ++ rest) = some rest := rfl
  have utc : offset? ['Z'] = some (0, []) := rfl
  have accepted : ((Text.trimLeft []).isEmpty && yearInRange year && decide (1 ≤ month) && decide (month ≤ 12) &&
      decide (1 ≤ day) && decide (day ≤ daysInMonth year month) && decide (hour < 24) && decide (minute < 60) &&
      decide (second ≤ 60)) = true := by
    simp [Text.trimLeft, known, month₁, month₂, day₁, day₂, hour₂, minute₂, second₂]
  unfold parse?
  simp only [String.toList_append, List.append_assoc]
  refine Option.bind_eq_some_iff.mpr ⟨_, four _, ?_⟩
  refine Option.bind_eq_some_iff.mpr ⟨_, dash _, ?_⟩
  refine Option.bind_eq_some_iff.mpr ⟨_, two (by omega) _, ?_⟩
  refine Option.bind_eq_some_iff.mpr ⟨_, dash _, ?_⟩
  refine Option.bind_eq_some_iff.mpr ⟨_, two (by omega) _, ?_⟩
  refine Option.bind_eq_some_iff.mpr ⟨_, separator _, ?_⟩
  refine Option.bind_eq_some_iff.mpr ⟨_, two (by omega) _, ?_⟩
  refine Option.bind_eq_some_iff.mpr ⟨_, colon _, ?_⟩
  refine Option.bind_eq_some_iff.mpr ⟨_, two (by omega) _, ?_⟩
  refine Option.bind_eq_some_iff.mpr ⟨_, colon _, ?_⟩
  refine Option.bind_eq_some_iff.mpr ⟨_, two (by omega) _, ?_⟩
  refine Option.bind_eq_some_iff.mpr ⟨_, fraction?_fractionText nanos₂, ?_⟩
  refine Option.bind_eq_some_iff.mpr ⟨_, utc, ?_⟩
  refine (if_pos accepted).trans ?_
  simp only [Int.sub_zero, seconds, fraction, range, if_true]

/-- A timestamp is read as it was written. -/
theorem parse?_text {t : Timestamp} (h : t.Plain) : parse? t.text = some t := by
  obtain ⟨⟨oldest, latest⟩, nanos⟩ := h
  obtain ⟨month₁, month₂, day₁, day₂⟩ := date_mem (t.seconds.fdiv 86400)
  have number := dayNumber_date (t.seconds.fdiv 86400)
  obtain ⟨year, same⟩ : ∃ year : Nat, (date (t.seconds.fdiv 86400)).1 = year :=
    ⟨_, (Int.toNat_of_nonneg oldest).symm⟩
  have written : yearText year = Decimal.zeroFilled 4 year := by
    unfold yearText
    rw [if_pos (by omega), Int.toNat_natCast]
  have range : yearInRange (date (t.seconds.fdiv 86400)).1 = true := by
    simp [yearInRange]
    omega
  obtain ⟨rest, clock⟩ : ∃ rest : Nat, t.seconds.fmod 86400 = rest :=
    ⟨_, (Int.toNat_of_nonneg (Int.fmod_nonneg_of_pos _ (by decide))).symm⟩
  have short : t.seconds.fmod 86400 < 86400 := Int.fmod_lt_of_pos _ (by decide)
  have total : t.seconds.fdiv 86400 * 86400 + t.seconds.fmod 86400 = t.seconds := Int.fdiv_mul_add_fmod ..
  -- A leap second is the sixtieth of its minute.
  have leap : 1000000000 ≤ t.nanos → rest % 60 = 59 := by
    intro long
    rw [Int.fmod_eq_emod_of_nonneg _ (by decide)] at clock nanos
    omega
  rw [same] at day₂ number latest
  unfold text
  simp only [same, written, clock, Int.toNat_natCast]
  refine parse?_numbers (by omega) month₁ month₂ day₁ day₂ (by omega) (by omega) (by omega) (by omega) ?_ ?_ range
  · rw [number]
    split <;> omega
  · split <;> omega

theorem ofJson?_toJson {t : Timestamp} (h : t.Plain) : ofJson? t.toJson = some t := by
  simpa [ofJson?, toJson, Json.string?] using parse?_text h

end FleetCoordination.Timestamp
