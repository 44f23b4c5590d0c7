import Mathlib.Algebra.Group.Nat.Defs
import FleetCoordination.Uuid
/-!
# Texts of UUIDs

A UUID is read as it was written: the hyphenated text has no braces and no scheme, and
its digits without the hyphens are those of the number.
-/
namespace FleetCoordination.Uuid

/-! ## Hexadecimal digits -/

@[simp] theorem length_hexDigits (width n : Nat) : (hexDigits width n).length = width := by
  induction width generalizing n with
  | zero => rfl
  | succ width ih => simp [hexDigits, ih]

theorem hexValue?_digitChar : ∀ d < 16, Json.hexValue? (Nat.digitChar d) = some d := by decide

theorem hexValue_hexDigits {width n : Nat} (fits : n < 16 ^ width) : hexValue (hexDigits width n) = some n := by
  induction width generalizing n with
  | zero =>
    have zero : n = 0 := Nat.lt_one_iff.mp fits
    simp [hexDigits, hexValue, zero]
  | succ width ih =>
    have front : hexValue (hexDigits width (n / 16)) = some (n / 16) := ih (by omega)
    unfold hexValue at front ⊢
    have last : Json.hexValue? (Nat.digitChar (n % 16)) = some (n % 16) :=
      hexValue?_digitChar _ (Nat.mod_lt _ (by decide))
    simp [hexDigits, List.foldlM_append, front, last, Nat.div_add_mod]

theorem isSome_of_mem_hexDigits {width n : Nat} {c : Char} (h : c ∈ hexDigits width n) :
    (Json.hexValue? c).isSome := by
  induction width generalizing n with
  | zero => cases h
  | succ width ih =>
    rcases List.mem_append.mp h with front | last
    · exact ih front
    · rw [List.mem_singleton.mp last, hexValue?_digitChar _ (Nat.mod_lt _ (by decide))]
      rfl

/-! ## Hyphens -/

theorem unhyphenate_groups {a b c d e : List Char} (ha : a.length = 8) (hb : b.length = 4) (hc : c.length = 4)
    (hd : d.length = 4) (he : e.length = 12) :
    unhyphenate (a ++ '-' :: b ++ '-' :: c ++ '-' :: d ++ '-' :: e) = some (a ++ b ++ c ++ d ++ e) := by
  simp [unhyphenate, List.drop_append, List.drop_of_length_le, ha, hb, hc, hd, he]

theorem unhyphenate_hyphenate {cs : List Char} (h : cs.length = 32) : unhyphenate (hyphenate cs) = some cs := by
  have group (k n : Nat) : (cs.drop k).take n ++ cs.drop (k + n) = cs.drop k := by
    rw [← List.drop_drop, List.take_append_drop]
  rw [hyphenate, unhyphenate_groups (by simp [h]) (by simp [h]) (by simp [h]) (by simp [h]) (by simp [h])]
  simp only [List.append_assoc, group 16 4, group 12 4, group 8 4, List.take_append_drop]

theorem head?_hyphenate {cs : List Char} (h : cs ≠ []) : (hyphenate cs).head? = cs.head? := by
  cases cs with
  | nil => exact absurd rfl h
  | cons c cs => rfl

/-- A text that starts with a digit is not wrapped. -/
theorem unwrap_of_isSome {cs : List Char} (h : ∀ c ∈ cs.head?, (Json.hexValue? c).isSome) : unwrap cs = cs := by
  unfold unwrap
  split
  · cases h _ rfl
  · cases h _ rfl
  · rfl

/-- A UUID is read as it was written. -/
theorem parse?_text (u : Uuid) : parse? u.text = some u := by
  have digits : (hexDigits 32 u.bits.toNat).length = 32 := length_hexDigits ..
  have full : hexDigits 32 u.bits.toNat ≠ [] := List.ne_nil_of_length_eq_add_one digits
  have long : (hyphenate (hexDigits 32 u.bits.toNat)).length ≠ 32 := by simp [hyphenate]
  have bare : unwrap (hyphenate (hexDigits 32 u.bits.toNat)) = hyphenate (hexDigits 32 u.bits.toNat) := by
    refine unwrap_of_isSome fun c first => ?_
    rw [head?_hyphenate full] at first
    exact isSome_of_mem_hexDigits (List.mem_of_mem_head? first)
  have value : hexValue (hexDigits 32 u.bits.toNat) = some u.bits.toNat := hexValue_hexDigits u.bits.isLt
  simp only [parse?, text, String.toList_ofList, if_neg long, bare, unhyphenate_hyphenate digits, bind,
    Option.bind_some, value, Option.map_some, ofNat, BitVec.ofNat_toNat, BitVec.setWidth_eq]

theorem ofJson?_toJson (u : Uuid) : ofJson? u.toJson = some u := by
  simpa [ofJson?, toJson, Json.string?] using parse?_text u

end FleetCoordination.Uuid
