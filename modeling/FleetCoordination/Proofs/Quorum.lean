import Mathlib.Data.Finset.Card
import Mathlib.Data.Rat.Floor
import Mathlib.Tactic.Linarith
import Mathlib.Tactic.NormNum
import FleetCoordination.Agent
import FleetCoordination.Quorum
/-!
# Quorums among faulty voters

With exact fractions a quorum rises with the fraction and with the number of voters. A quorum of
two thirds is out of reach for the faulty voters alone and in reach without them, and two such
quorums of the same voters have more voters in common than are faulty.
-/
namespace FleetCoordination.Quorum

/-! ## Shares -/

theorem slack_eq : (slack : ℚ) = 1 / 10 ^ 9 := by
  unfold slack
  norm_num

/-- The slack is taken off before rounding up, and a share stays within a word. -/
theorem share_le_iff {fraction : ℚ} {alive k : ℕ} :
    share fraction alive ≤ k ↔ fraction * alive - slack ≤ k ∨ Word.last 64 ≤ k := by
  change min (fraction * alive - slack).ceil.toNat (Word.last 64) ≤ k ↔ _
  rw [min_le_iff, Int.toNat_le, Rat.ceil_le_iff, Int.cast_natCast]

theorem size_le_iff {fraction : ℚ} {alive k : ℕ} (some_ : 1 ≤ alive) :
    size fraction alive ≤ k ↔ 1 ≤ k ∧ share fraction alive ≤ k ∨ alive ≤ k := by
  unfold size
  omega

theorem share_mono {fraction fraction' : ℚ} {alive alive' : ℕ} (h : fraction * alive ≤ fraction' * alive') :
    share fraction alive ≤ share fraction' alive' := by
  obtain below | full := share_le_iff.mp (le_refl (share fraction' alive'))
  · exact share_le_iff.mpr (.inl ((sub_le_sub_right h slack).trans below))
  · exact share_le_iff.mpr (.inr full)

theorem size_mono {fraction fraction' : ℚ} {alive alive' : ℕ} (h : fraction * alive ≤ fraction' * alive')
    (more : alive ≤ alive') : size fraction alive ≤ size fraction' alive' := by
  have shares := share_mono h
  unfold size
  omega

/-! ## Two thirds -/

/-- The slack is too small to be seen in a product that is a number of thirds. -/
theorem share_two_thirds_le_iff {alive k : ℕ} :
    share (2 / 3 : ℚ) alive ≤ k ↔ 2 * alive ≤ 3 * k ∨ Word.last 64 ≤ k := by
  have thirds : (2 / 3 : ℚ) * alive - slack ≤ k ↔ 2 * alive ≤ 3 * k := by
    rw [slack_eq]
    constructor
    · intro h
      have near : ((2 * alive : ℕ) : ℚ) < (3 * k + 1 : ℕ) := by
        push_cast
        linarith
      exact Nat.lt_succ_iff.mp (Nat.cast_lt.mp near)
    · intro h
      have exact_ : ((2 * alive : ℕ) : ℚ) ≤ (3 * k : ℕ) := Nat.cast_le.mpr h
      push_cast at exact_
      linarith
  rw [share_le_iff, thirds]

theorem size_two_thirds {alive : ℕ} (some_ : 1 ≤ alive) (word : alive ≤ Word.last 64) :
    size (2 / 3 : ℚ) alive = (2 * alive + 2) / 3 := by
  refine eq_of_forall_ge_iff fun k => ?_
  rw [size_le_iff some_, share_two_thirds_le_iff]
  omega

theorem ceil_two_thirds (alive : ℕ) : ⌈(2 * alive / 3 : ℚ)⌉₊ = (2 * alive + 2) / 3 := by
  refine eq_of_forall_ge_iff fun k => ?_
  have thirds : (2 * alive / 3 : ℚ) ≤ k ↔ 2 * alive ≤ 3 * k := by
    rw [div_le_iff₀ (by norm_num), mul_comm (k : ℚ)]
    exact_mod_cast Iff.rfl
  rw [Nat.ceil_le, thirds]
  omega

/-! ## Faulty voters -/

/-- Whether a number of approvals among some voters stands up to a number of faulty ones. -/
structure Tolerates (voters : Finset AgentId) (quorum faulty : ℕ) : Prop where
  /-- The faulty voters cannot approve alone. -/
  unreached : ∀ bad ⊆ voters, bad.card ≤ faulty → bad.card < quorum
  /-- They cannot keep the others from approving. -/
  unblocked : ∀ bad ⊆ voters, bad.card ≤ faulty → quorum ≤ (voters \ bad).card
  /-- Two approvals have more voters in common than are faulty. -/
  overlap : ∀ yes ⊆ voters, ∀ yes' ⊆ voters, quorum ≤ yes.card → quorum ≤ yes'.card → faulty < (yes ∩ yes').card

theorem Tolerates.of_counts {voters : Finset AgentId} {quorum faulty : ℕ} (low : faulty < quorum)
    (high : quorum + faulty ≤ voters.card) (twice : voters.card + faulty < 2 * quorum) :
    Tolerates voters quorum faulty where
  unreached _ _ few := few.trans_lt low
  unblocked bad sub few := by
    rw [Finset.card_sdiff_of_subset sub]
    omega
  overlap yes sub yes' sub' enough enough' := by
    have both := Finset.card_union_add_card_inter yes yes'
    have among := Finset.card_le_card (Finset.union_subset sub sub')
    omega

/-- A quorum is some of the voters, all of them at most, and rises with the fraction and with
their number. Of two thirds, it tolerates as many faulty voters as there may be. -/
theorem quorum_tolerates_faulty :
    (∀ (fraction : ℚ) (alive : ℕ), 0 < fraction → fraction ≤ 1 → 1 ≤ alive →
      1 ≤ size fraction alive ∧ size fraction alive ≤ alive ∧
        (∀ fraction', fraction ≤ fraction' → fraction' ≤ 1 → size fraction alive ≤ size fraction' alive) ∧
        ∀ alive', alive ≤ alive' → size fraction alive ≤ size fraction alive') ∧
    ∀ n, 1 ≤ n → n ≤ Word.last 64 →
      size (2 / 3 : ℚ) n = ⌈(2 * n / 3 : ℚ)⌉₊ ∧
        maxFaulty n < size (2 / 3 : ℚ) n ∧ size (2 / 3 : ℚ) n ≤ n - maxFaulty n ∧
        (maxFaulty n : ℤ) < 2 * size (2 / 3 : ℚ) n - n ∧
        ∀ voters : Finset AgentId, voters.card = n → Tolerates voters (size (2 / 3 : ℚ) n) (maxFaulty n) := by
  refine ⟨fun fraction alive positive _ some_ => ⟨one_le_size .., size_le _ some_, ?_, ?_⟩, fun n some_ word => ?_⟩
  · intro fraction' more _
    exact size_mono (mul_le_mul_of_nonneg_right more alive.cast_nonneg) le_rfl
  · intro alive' more
    exact size_mono (mul_le_mul_of_nonneg_left (Nat.cast_le.mpr more) positive.le) more
  · rw [size_two_thirds some_ word, ceil_two_thirds, maxFaulty]
    refine ⟨rfl, by omega, by omega, by omega, fun voters card => .of_counts ?_ ?_ ?_⟩ <;> omega

/-- Of four voters three are a quorum, so that one may be faulty; it takes more than a half. -/
theorem quorum_tolerates_faulty_four : size (2 / 3 : ℚ) 4 = 3 ∧ maxFaulty 4 = 1 ∧
    size (1 / 2 : ℚ) 4 ≤ size (2 / 3 : ℚ) 4 ∧ Tolerates {"A", "B", "C", "D"} (size (2 / 3 : ℚ) 4) (maxFaulty 4) := by
  obtain ⟨-, -, rises, -⟩ := quorum_tolerates_faulty.1 (1 / 2) 4 (by norm_num) (by norm_num) (by decide)
  obtain ⟨ceil, -, -, -, tolerates⟩ := quorum_tolerates_faulty.2 4 (by decide) (by decide)
  have three : ⌈(2 * (4 : ℕ) / 3 : ℚ)⌉₊ = 3 := ceil_two_thirds 4
  exact ⟨ceil.trans three, rfl, rises (2 / 3) (by norm_num) (by norm_num), tolerates _ (by decide)⟩

end FleetCoordination.Quorum
