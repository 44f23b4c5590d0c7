import FleetCoordination.LatencyWindow
import FleetCoordination.Proofs.LastItems
import FleetCoordination.Proofs.Scalar.Rounding
/-!
# Percentiles of a window

A percentile is the sample at a place among those that are kept, in order. The place is the nearest
rank, but for the rounding of the product that it comes from: when that is close to a whole number,
the place may be off by one.
-/
namespace FleetCoordination

/-! ## Order -/

namespace LatencyWindowOf
variable {xs : List Float} {x y : Float} {i : Nat}

theorem length_sorted (xs : List Float) : (sorted xs).length = xs.length := List.length_mergeSort xs

theorem perm_sorted (xs : List Float) : (sorted xs).Perm xs := List.mergeSort_perm xs _

theorem pairwise_floatRank (xs : List Float) :
    (sorted xs).Pairwise fun a b => Scalar.floatRank a ≤ Scalar.floatRank b := by
  have order (a b : Float) : (Scalar.order a b).isLE = true ↔ Scalar.floatRank a ≤ Scalar.floatRank b :=
    Int.isLE_compare
  have sort : (sorted xs).Pairwise fun a b => (Scalar.order a b).isLE = true := by
    refine List.pairwise_mergeSort (fun a b c => ?_) (fun a b => ?_) xs
    · simp only [order]
      omega
    · simp only [Bool.or_eq_true, order]
      omega
  simpa only [order] using sort

/-- The samples in order do not tell in which order they came. -/
theorem sorted_congr {ys : List Float} (same : xs.Perm ys) : sorted xs = sorted ys := by
  refine List.Perm.eq_of_pairwise (fun a b _ _ least most => ?_) (pairwise_floatRank xs) (pairwise_floatRank ys)
    ((perm_sorted xs).trans (same.trans (perm_sorted ys).symm))
  exact Scalar.order_eq_eq.mp (Int.compare_eq_eq.mpr (Int.le_antisymm least most))

/-- Of items in order those that pass come first, and there are as many as there are. -/
theorem passes_iff_lt_countP {α : Type} {p : α → Bool} {items : List α}
    (order : items.Pairwise fun a b => p b = true → p a = true) (h : i < items.length) :
    p items[i] = true ↔ i < items.countP p := by
  induction items generalizing i with
  | nil => cases h
  | cons a rest ih =>
    obtain ⟨first, order⟩ := List.pairwise_cons.mp order
    by_cases pass : p a = true
    · cases i with
      | zero => simp [pass]
      | succ i => simpa [pass] using ih order (Nat.lt_of_succ_lt_succ h)
    · have none_ : rest.countP p = 0 := List.countP_eq_zero.mpr fun b hb pass' => pass (first b hb pass')
      cases i with
      | zero => simp [pass, none_]
      | succ i =>
        have later := List.countP_eq_zero.mp none_ _ (List.getElem_mem (Nat.lt_of_succ_lt_succ h))
        simpa [pass, none_] using later

/-! ## Nearest ranks -/

/-- Whether a sample is the least at or below which so many percent of some samples are. -/
def NearestRank (kept : List Float) (percent : Rat) (x : Float) : Prop :=
  x ∈ kept ∧ percent * kept.length ≤ 100 * kept.countP (· ≤ x) ∧
    ∀ y ∈ kept, percent * kept.length ≤ 100 * kept.countP (· ≤ y) → x ≤ y

section NearestRank
variable {kept : List Float} {percent : Rat}

/-- The rank over the rationals, which is in its range without being held there. -/
theorem rank_eq {n : Nat} (some_ : 0 < n) (few : n ≤ 512) (above : 0 < percent) (most : percent ≤ 100) :
    rank percent n = ⌈percent * n / 100⌉₊ ∧ 0 < ⌈percent * n / 100⌉₊ ∧ ⌈percent * n / 100⌉₊ ≤ n := by
  have samples : (0 : Rat) < n := by exact_mod_cast some_
  have hundred : (100.0 : Rat) = 100 := by norm_num
  have least : 0 < ⌈percent * n / 100⌉₊ := Nat.ceil_pos.mpr (by positivity)
  have greatest : ⌈percent * n / 100⌉₊ ≤ n := by
    rw [Nat.ceil_le, div_le_iff₀ (by norm_num)]
    nlinarith
  have word : Word.last 64 = 18446744073709551615 := rfl
  have product : percent / 100.0 * Scalar.ofNat n = percent * n / 100 := by
    rw [hundred]
    exact div_mul_eq_mul_div ..
  refine ⟨?_, least, greatest⟩
  rw [rank, product, Scalar.ceiling_eq_natCeil, word]
  omega

variable (numbers : ∀ x ∈ kept, x.isNaN = false)
include numbers

theorem sorted_le_iff {x : Float} {i : Nat} (h : i < (sorted kept).length) :
    (sorted kept)[i] ≤ x ↔ i < kept.countP (· ≤ x) := by
  have order : (sorted kept).Pairwise fun a b => decide (b ≤ x) = true → decide (a ≤ x) = true := by
    refine (pairwise_floatRank kept).imp_of_mem fun {a b} ha hb rank least => ?_
    simp only [decide_eq_true_eq] at least ⊢
    have first := Scalar.le_of_floatRank_le (numbers a ((perm_sorted kept).mem_iff.mp ha))
      (numbers b ((perm_sorted kept).mem_iff.mp hb)) rank
    exact Scalar.le_of_le_of_le first least
  rw [← (perm_sorted kept).countP_eq, ← passes_iff_lt_countP order h, decide_eq_true_eq]

/-- The sample at the exact rank is the nearest one, and so is each that is as great. -/
theorem nearestRank_iff (some_ : kept ≠ []) (few : kept.length ≤ 512) (above : 0 < percent) (most : percent ≤ 100)
    {x nearest : Float} (found : (sorted kept)[rank percent kept.length - 1]? = some nearest) :
    NearestRank kept percent x ↔ x ∈ kept ∧ x ≤ nearest ∧ nearest ≤ x := by
  obtain ⟨place, least, greatest⟩ := rank_eq (List.length_pos_iff.mpr some_) few above most
  rw [place] at found
  generalize ceil : ⌈percent * kept.length / 100⌉₊ = r at *
  have inside : r - 1 < (sorted kept).length := by
    rw [length_sorted]
    omega
  rw [List.getElem?_eq_getElem inside] at found
  obtain rfl := Option.some.inj found
  have covers (y : Float) : percent * kept.length ≤ 100 * kept.countP (· ≤ y) ↔ (sorted kept)[r - 1] ≤ y := by
    rw [sorted_le_iff numbers inside, Nat.sub_lt_iff_lt_add least, Nat.lt_succ_iff, ← ceil, Nat.ceil_le,
      div_le_iff₀ (by norm_num), mul_comm (100 : Rat)]
  have member : (sorted kept)[r - 1] ∈ kept := (perm_sorted kept).mem_iff.mp (List.getElem_mem inside)
  simp only [NearestRank, covers]
  refine and_congr_right fun known => ⟨fun ⟨above, below⟩ => ?_, fun ⟨below, above⟩ => ?_⟩
  · exact ⟨below _ member (Scalar.le_self (numbers _ member)), above⟩
  · exact ⟨above, fun y _ more => Scalar.le_of_le_of_le below more⟩

end NearestRank

/-! ## Places -/

section Places
open Scalar (Rounds Stands)
variable {percent percent' : Float} {p p' a b : Rat} {n : Nat}

/-- What a percentage stands for. -/
theorem exists_percentage (above : 0.0 < percent) (most : percent ≤ 100.0) :
    ∃ p, Stands percent.toModel.unpack p ∧ 0 < p ∧ p ≤ 100 :=
  Scalar.exists_stands above most (Scalar.stands_whole 100 (by decide +kernel) (by decide))

/-- The product that a place comes from is the exact one but for two roundings. -/
theorem exists_product (known : Stands percent.toModel.unpack p) (above : 0 < p) (most : p ≤ 100) (some_ : 0 < n)
    (few : n ≤ 512) :
    ∃ a b, Rounds (p / 100) a ∧ Rounds (a * n) b ∧ 0 ≤ a ∧ |p * n / 100 - b| ≤ 1 / 2 ^ 43 ∧
      rank percent n = min (max ⌈b⌉₊ 1) n := by
  have samples : (0 : Rat) < n := by exact_mod_cast some_
  have few' : (n : Rat) ≤ 512 := by exact_mod_cast few
  have huge (k : Int) (h : k ≤ 1022) : (2 : Rat) ^ k ≤ 2 ^ (1022 : Int) := zpow_le_zpow_right₀ (by norm_num) h
  have part : p / 100 ≤ 2 ^ (0 : Int) := by
    rw [div_le_iff₀ (by norm_num)]
    simpa using most
  have hundred : Stands (100.0 : Float).toModel.unpack 100 := Scalar.stands_whole 100 (by decide +kernel) (by decide)
  obtain ⟨a, rounds, share⟩ := Scalar.stands_div known hundred (by norm_num) (part.trans (huge 0 (by decide)))
  obtain ⟨least, off⟩ := rounds.within (by positivity) part (by decide)
  have nonneg := share.nonneg
  have product : a * n ≤ 2 ^ (9 : Int) := by
    norm_num at least ⊢
    nlinarith
  have count : Stands (Scalar.ofNat n : Float).toModel.unpack n := Scalar.stands_ofNat (by omega)
  obtain ⟨b, rounds', whole⟩ := Scalar.stands_mul share count (product.trans (huge 9 (by decide)))
  obtain ⟨highest, off'⟩ := rounds'.within (mul_nonneg nonneg samples.le) product (by decide)
  refine ⟨a, b, rounds, rounds', nonneg, ?_, ?_⟩
  · have first : |(p / 100 - a) * n| ≤ 2 ^ (0 - 53 : Int) * 512 := by
      rw [abs_mul, abs_of_pos samples]
      exact mul_le_mul off few' samples.le (by positivity)
    calc |p * n / 100 - b| = |(p / 100 - a) * n + (a * n - b)| := by ring_nf
      _ ≤ |(p / 100 - a) * n| + |a * n - b| := abs_add_le ..
      _ ≤ 2 ^ (0 - 53 : Int) * 512 + 2 ^ (9 - 53 : Int) := add_le_add first off'
      _ = 1 / 2 ^ 43 := by norm_num
  · have word : ⌈b⌉₊ ≤ Word.last 64 := by
      refine Nat.ceil_le.mpr (highest.trans ?_)
      have last : Word.last 64 = 18446744073709551615 := rfl
      rw [last]
      norm_num
    rw [rank, Scalar.ceiling_eq whole, min_eq_left word]

/-- A greater percentage comes to a later place. -/
theorem rank_mono (known : Stands percent.toModel.unpack p) (known' : Stands percent'.toModel.unpack p') (above : 0 < p)
    (le : p ≤ p') (most : p' ≤ 100) (some_ : 0 < n) (few : n ≤ 512) : rank percent n ≤ rank percent' n := by
  obtain ⟨a, b, rounds, rounds₂, nonneg, -, place⟩ := exists_product known above (le.trans most) some_ few
  obtain ⟨a', b', rounds', rounds₂', -, -, place'⟩ := exists_product known' (above.trans_le le) most some_ few
  have shares : a ≤ a' := rounds.mono rounds' (by positivity) (by linarith)
  have products : b ≤ b' := rounds₂.mono rounds₂' (by positivity) (by gcongr)
  have ceilings : ⌈b⌉₊ ≤ ⌈b'⌉₊ := Nat.ceil_mono products
  omega

/-- A place is the exact rank, or off by one where the exact product is close to a whole number. -/
theorem rank_near (known : Stands percent.toModel.unpack p) (above : 0 < p) (most : p ≤ 100) (some_ : 0 < n)
    (few : n ≤ 512) :
    rank percent n = rank p n ∨ (rank percent n = rank p n + 1 ∨ rank p n = rank percent n + 1) ∧
      ∃ whole : Nat, |p * n / 100 - whole| ≤ 1 / 2 ^ 43 := by
  obtain ⟨a, b, -, -, -, off, place⟩ := exists_product known above most some_ few
  obtain ⟨due, least, greatest⟩ := rank_eq some_ few above most
  obtain ⟨low, high⟩ := abs_le.mp off
  rw [place, due]
  rcases Nat.lt_trichotomy ⌈b⌉₊ ⌈p * n / 100⌉₊ with lower | same | higher
  · have before := Nat.lt_ceil.mp lower
    have after := Nat.le_ceil b
    have next : ⌈p * n / 100⌉₊ ≤ ⌈b⌉₊ + 1 := by
      rw [Nat.ceil_le]
      push_cast
      linarith
    have close : |p * n / 100 - ⌈b⌉₊| ≤ 1 / 2 ^ 43 := abs_le.mpr ⟨by linarith, by linarith⟩
    by_cases clamped : ⌈b⌉₊ = 0
    · exact .inl (by omega)
    · exact .inr ⟨.inr (by omega), _, close⟩
  · exact .inl (by omega)
  · have before := Nat.lt_ceil.mp higher
    have after := Nat.le_ceil (p * n / 100)
    have next : ⌈b⌉₊ ≤ ⌈p * n / 100⌉₊ + 1 := by
      rw [Nat.ceil_le]
      push_cast
      linarith
    have close : |p * n / 100 - ⌈p * n / 100⌉₊| ≤ 1 / 2 ^ 43 := abs_le.mpr ⟨by linarith, by linarith⟩
    by_cases clamped : ⌈p * n / 100⌉₊ = n
    · exact .inl (by omega)
    · exact .inr ⟨.inl (by omega), _, close⟩

theorem rank_hundred (some_ : 0 < n) (few : n ≤ 512) : rank (100.0 : Float) n = n := by
  have hundred : Stands (100.0 : Float).toModel.unpack 100 := Scalar.stands_whole 100 (by decide +kernel) (by decide)
  obtain ⟨a, b, -, -, -, off, place⟩ := exists_product hundred (by norm_num) le_rfl some_ few
  obtain ⟨low, high⟩ := abs_le.mp off
  have all : n - 1 < ⌈b⌉₊ := by
    rw [Nat.lt_ceil, Nat.cast_pred some_]
    linarith
  omega

/-- The percentile that is reported is at the exact rank in every window. -/
theorem rank_reported (some_ : 0 < n) (few : n ≤ 512) : rank (95.0 : Float) n = rank (95 : Rat) n := by
  have percent : Stands (95.0 : Float).toModel.unpack 95 := Scalar.stands_whole 95 (by decide +kernel) (by decide)
  obtain exact_ | ⟨-, whole, close⟩ := rank_near percent (by norm_num) (by norm_num) some_ few
  · exact exact_
  -- the product is close to a whole number only if it is one
  have level : 95 * n = 100 * whole := by
    obtain ⟨low, high⟩ := abs_le.mp close
    have less : (95 * n : Rat) < 100 * whole + 1 := by linarith
    have more : (100 * whole : Rat) < 95 * n + 1 := by linarith
    have less' : 95 * n < 100 * whole + 1 := by exact_mod_cast less
    have more' : 100 * whole < 95 * n + 1 := by exact_mod_cast more
    omega
  obtain ⟨m, rfl⟩ : ∃ m, n = 20 * m := ⟨n / 20, by omega⟩
  have exact_ : ⌈(95 : Rat) * (20 * m : Nat) / 100⌉₊ = 19 * m := by
    have product : (95 : Rat) * (20 * m : Nat) / 100 = (19 * m : Nat) := by
      push_cast
      ring
    rw [product, Nat.ceil_natCast]
  have multiples : ∀ m : Fin 26, 0 < m.val → rank (95.0 : Float) (20 * m) = 19 * m := by decide +kernel
  rw [(rank_eq some_ few (by norm_num) (by norm_num)).1, exact_]
  exact multiples ⟨m, by omega⟩ (by simp only; omega)

end Places

/-! ## Windows -/

/-- The window after some samples, oldest first. -/
def recorded (samples : List Float) : LatencyWindow := samples.foldl LatencyWindowOf.record {}

section Windows
variable {samples : List Float} {x : Float}

theorem recorded_concat (samples : List Float) (x : Float) :
    recorded (samples ++ [x]) = (recorded samples).record x := by
  simp [recorded]

/-- A window keeps the last samples. -/
theorem samples_recorded (samples : List Float) : (recorded samples).samples = samples.rtake 512 := by
  induction samples using List.reverseRecOn with
  | nil => rfl
  | append_singleton samples x ih =>
    rw [recorded_concat, record, ih]
    exact slide_rtake 511 samples x

theorem count_recorded (samples : List Float) : (recorded samples).count = samples.length % 2 ^ 64 := by
  have word : Word.count 64 = 2 ^ 64 := by decide
  induction samples using List.reverseRecOn with
  | nil => rfl
  | append_singleton samples x ih => simp [recorded_concat, record, ih, Word.add, word]

theorem last_recorded (samples : List Float) : (recorded samples).last = samples.getLast? := by
  rw [last, samples_recorded, getLast?_rtake (by decide)]

section Kept
variable {kept : List Float} {y : Float} {i j : Nat} (numbers : ∀ x ∈ kept, x.isNaN = false)
include numbers

theorem sorted_mono (first : (sorted kept)[i]? = some x) (second : (sorted kept)[j]? = some y) (le : i ≤ j) :
    x ≤ y := by
  obtain ⟨hi, rfl⟩ := List.getElem?_eq_some_iff.mp first
  obtain ⟨hj, rfl⟩ := List.getElem?_eq_some_iff.mp second
  have known {k : Nat} (hk : k < (sorted kept).length) : (sorted kept)[k].isNaN = false :=
    numbers _ ((perm_sorted kept).mem_iff.mp (List.getElem_mem hk))
  rcases le.lt_or_eq with less | rfl
  · have rank := List.pairwise_iff_getElem.mp (pairwise_floatRank kept) i j hi hj less
    exact Scalar.le_of_floatRank_le (known hi) (known hj) rank
  · exact Scalar.le_self (known hi)

/-- The last sample in order is the greatest. -/
theorem le_sorted_last (last : (sorted kept)[kept.length - 1]? = some x) (hy : y ∈ kept) : y ≤ x := by
  obtain ⟨j, hj, rfl⟩ := List.mem_iff_getElem.mp ((perm_sorted kept).mem_iff.mpr hy)
  have bound := length_sorted kept
  exact sorted_mono numbers (List.getElem?_eq_getElem hj) last (by omega)

end Kept

section Percentile
variable {percent percent' : Float} {p : Rat}

/-- Percentiles do not tell in which order the samples that are kept came. -/
theorem percentile_congr {others : List Float} (same : (others.rtake 512).Perm (samples.rtake 512)) (percent : Float) :
    (recorded others).percentile percent = (recorded samples).percentile percent := by
  simp only [percentile, samples_recorded, sorted_congr same, same.length_eq]

variable (some_ : samples ≠ [])
include some_

theorem length_kept : 0 < (samples.rtake 512).length ∧ (samples.rtake 512).length ≤ 512 := by
  have := List.length_pos_iff.mpr some_
  rw [length_rtake]
  omega

/-- A percentile is the sample at its place. -/
theorem getElem?_percentile (percent : Float) :
    (sorted (samples.rtake 512))[rank percent (samples.rtake 512).length - 1]? =
      some ((recorded samples).percentile percent) := by
  have held := (length_kept some_).1
  have inside : rank percent (samples.rtake 512).length - 1 < (sorted (samples.rtake 512)).length := by
    rw [length_sorted, rank]
    omega
  rw [percentile, samples_recorded, List.getElem?_eq_getElem inside]
  rfl

theorem percentile_mem (percent : Float) : (recorded samples).percentile percent ∈ samples.rtake 512 :=
  (perm_sorted _).mem_iff.mp (List.mem_of_getElem? (getElem?_percentile some_ percent))

variable (numbers : ∀ x ∈ samples.rtake 512, x.isNaN = false)
include numbers

/-- A greater percentage is that of a greater sample. -/
theorem percentile_mono (above : 0.0 < percent) (le : percent ≤ percent') (most : percent' ≤ 100.0) :
    (recorded samples).percentile percent ≤ (recorded samples).percentile percent' := by
  obtain ⟨held, few⟩ := length_kept some_
  obtain ⟨number, number', above'⟩ := Scalar.le_iff_not_lt.mp le
  obtain ⟨p, known, positive, -⟩ := exists_percentage above (Scalar.le_of_le_of_le le most)
  obtain ⟨p', known', -, bounded⟩ := exists_percentage (Scalar.lt_of_lt_of_not_lt above above' number') most
  have order := (Scalar.le_iff_of_stands known known').mp le
  have places := rank_mono known known' positive order bounded held few
  exact sorted_mono numbers (getElem?_percentile some_ percent) (getElem?_percentile some_ percent')
    (Nat.sub_le_sub_right places 1)

/-- The percentile of all is the greatest sample. -/
theorem le_percentile_hundred {y : Float} (hy : y ∈ samples.rtake 512) : y ≤ (recorded samples).percentile 100.0 := by
  obtain ⟨held, few⟩ := length_kept some_
  have greatest := getElem?_percentile some_ 100.0
  rw [rank_hundred held few] at greatest
  exact le_sorted_last numbers greatest hy

/-- The sample at the exact rank is the nearest one, and tells whether the percentile is. -/
theorem exists_nearestRank (above : 0 < p) (most : p ≤ 100) (percent : Float) :
    ∃ nearest, (sorted (samples.rtake 512))[rank p (samples.rtake 512).length - 1]? = some nearest ∧
      NearestRank (samples.rtake 512) p nearest ∧
      (NearestRank (samples.rtake 512) p ((recorded samples).percentile percent) ↔
        (recorded samples).percentile percent ≤ nearest ∧ nearest ≤ (recorded samples).percentile percent) := by
  obtain ⟨held, few⟩ := length_kept some_
  obtain ⟨due, least, greatest⟩ := rank_eq held few above most
  have inside : rank p (samples.rtake 512).length - 1 < (sorted (samples.rtake 512)).length := by
    rw [length_sorted]
    omega
  have found := List.getElem?_eq_getElem inside
  have member := (perm_sorted _).mem_iff.mp (List.getElem_mem inside)
  have judged {y : Float} := nearestRank_iff (x := y) numbers (List.length_pos_iff.mp held) few above most found
  have itself := Scalar.le_self (numbers _ member)
  exact ⟨_, found, judged.mpr ⟨member, itself, itself⟩, judged.trans (and_iff_right (percentile_mem some_ percent))⟩

end Percentile

/-- A percentile of the last 512 samples is one of them, greater for a greater percentage and the
greatest for all, in whatever order they came. It is at the nearest rank if and only if it is as
great as the sample there. The place that it is at is that rank, or off by one where the exact
product is close to a whole number; it is that rank in every window for the percentile that is
reported. -/
theorem percentile_near_rank (some_ : samples ≠ []) (finite : ∀ x ∈ samples, x.isFinite = true) {percent : Float}
    (above : 0.0 < percent) (most : percent ≤ 100.0) :
    let w := recorded samples
    let kept := samples.rtake (min 512 samples.length)
    let x := w.percentile percent
    (x ∈ kept ∧ (∀ percent', percent ≤ percent' → percent' ≤ 100.0 → x ≤ w.percentile percent') ∧
      (percent = 100.0 → ∀ y ∈ kept, y ≤ x) ∧
      (∀ others : List Float, (others.rtake 512).Perm kept → (recorded others).percentile percent = x) ∧
      w.last = samples.getLast? ∧ w.count = samples.length % 2 ^ 64) ∧
    ∃ p nearest, Scalar.rational? percent = some p ∧ NearestRank kept p nearest ∧
      (NearestRank kept p x ↔ x ≤ nearest ∧ nearest ≤ x) ∧
      let place := rank percent kept.length
      let due := rank p kept.length
      (sorted kept)[place - 1]? = some x ∧ (sorted kept)[due - 1]? = some nearest ∧
        (place = due ∨ (place = due + 1 ∨ due = place + 1) ∧
          ∃ whole : Nat, |p * kept.length / 100 - whole| ≤ 1 / 2 ^ 43) ∧
        (percent = 95.0 → place = due) := by
  intro w kept x
  have last : kept = samples.rtake 512 := rtake_min_length 512 samples
  have numbers : ∀ y ∈ samples.rtake 512, y.isNaN = false :=
    fun y hy => Scalar.isNaN_of_isFinite (finite y (List.mem_of_mem_drop hy))
  obtain ⟨held, few⟩ := length_kept some_
  obtain ⟨p, known, positive, bounded⟩ := exists_percentage above most
  obtain ⟨nearest, due, least, judged⟩ := exists_nearestRank some_ numbers positive bounded percent
  simp only [last]
  refine ⟨⟨percentile_mem some_ percent, fun _ le most' => percentile_mono some_ numbers above le most', ?_,
    fun _ same => percentile_congr same percent, last_recorded samples, count_recorded samples⟩, p, nearest,
    known.rational?_eq, least, judged, getElem?_percentile some_ percent, due,
    rank_near known positive bounded held few, ?_⟩
  · rintro rfl y hy
    exact le_percentile_hundred some_ numbers hy
  · rintro rfl
    have value : Scalar.rational? 95.0 = some 95 := by decide +kernel
    obtain rfl := Option.some.inj (known.rational?_eq.symm.trans value)
    exact rank_reported held few

/-- The reported percentile of three samples is the greatest. -/
theorem percentile_near_rank_reported :
    NearestRank [3.0, 1.0, 2.0] 95 ((recorded [3.0, 1.0, 2.0]).percentile 95.0) := by
  have finite : ∀ x ∈ [(3.0 : Float), 1.0, 2.0], x.isFinite = true := by decide +kernel
  obtain ⟨-, p, nearest, known, rank, -, found, due, -, reported⟩ :=
    percentile_near_rank (by simp) finite (show (0.0 : Float) < 95.0 by decide +kernel) (by decide +kernel)
  have value : Scalar.rational? 95.0 = some 95 := by decide +kernel
  obtain rfl := Option.some.inj (known.symm.trans value)
  rw [reported rfl] at found
  exact Option.some.inj (due.symm.trans found) ▸ rank

/-- The first whole numbers, from one on. -/
def ramp (n : Nat) : List Float := (List.range n).map fun i => Float.ofNat (i + 1)

/-- Of the first 25 whole numbers 28 percent are at most seven, and the percentile is eight. -/
theorem nearest_rank_missed : ∃ (samples : List Float) (percent : Float) (p : Rat), samples.length = 25 ∧
    (∀ x ∈ samples, x.isFinite = true) ∧ 0.0 < percent ∧ percent ≤ 100.0 ∧ Scalar.rational? percent = some p ∧
    ¬NearestRank samples p ((recorded samples).percentile percent) := by
  have kept : (recorded (ramp 25)).samples = ramp 25 := samples_recorded _
  have order : sorted (ramp 25) = ramp 25 := List.mergeSort_of_pairwise (by decide +kernel)
  have eight : (recorded (ramp 25)).percentile 28.0 = 8.0 := by
    rw [percentile, kept, order]
    decide +kernel
  refine ⟨ramp 25, 28.0, 28, by decide, by decide +kernel, by decide +kernel, by decide +kernel, by decide +kernel, ?_⟩
  rintro ⟨-, -, least⟩
  have few : (ramp 25).length = 25 ∧ (ramp 25).countP (· ≤ 7.0) = 7 := by decide +kernel
  have above : (recorded (ramp 25)).percentile 28.0 ≤ 7.0 := by
    refine least 7.0 (List.mem_map.mpr ⟨6, by decide, by decide +kernel⟩) ?_
    rw [few.1, few.2]
    norm_num
  rw [eight] at above
  exact absurd above (by decide +kernel)

end Windows

end LatencyWindowOf

end FleetCoordination
