import Mathlib.Tactic.Linarith
import FleetCoordination.Arbitration
import FleetCoordination.Proofs.Scalar.Exact
/-!
# Arbitration between two policies

A policy beats another by the first of kind, score, time and scope that tells them apart. Which
of the two is called the local one does not matter for that, so that agents which see a conflict
from its two sides settle it alike; it decides only where nothing else does.
-/
namespace FleetCoordination

namespace Timestamp
variable {a b : Timestamp}

theorem before_iff : a.before b = true ↔ a.seconds < b.seconds ∨ a.seconds = b.seconds ∧ a.nanos < b.nanos := by
  simp [before]

theorem before_asymm (h : a.before b = true) : b.before a = false := by
  rw [before_iff] at h
  rw [← Bool.not_eq_true, before_iff]
  omega

theorem ne_of_before (h : a.before b = true) : a ≠ b := by
  rintro rfl
  exact absurd h (Bool.not_eq_true _ ▸ before_asymm h)

theorem before_or_before (apart : a ≠ b) : a.before b = true ∨ b.before a = true := by
  rw [before_iff, before_iff]
  obtain ⟨s, n⟩ := a
  obtain ⟨s', n'⟩ := b
  simp only [ne_eq, mk.injEq, not_and] at apart
  dsimp only
  omega

end Timestamp

namespace Arbitration

/-- The place of the other policy. -/
def Source.other : Source → Source
  | here => global
  | global => here

/-! ## Safety -/

section Safety
variable {α : Type} [Scalar α] {w : WeightsOf α} {p q : PolicyOf α}

omit [Scalar α] in
@[simp] theorem isSafety_iff {p : PolicyOf α} : isSafety p = true ↔ p.priority = .safety := decide_eq_true_iff

theorem winner_eq (w : WeightsOf α) (p q : PolicyOf α) :
    (resolve w p q).winner = if (choose w p q).1 = .here then p else q := by
  rw [resolve]
  obtain ⟨source, reason⟩ := choose w p q
  cases source <;> rfl

theorem winner_eq_or (w : WeightsOf α) (p q : PolicyOf α) :
    (resolve w p q).winner = p ∨ (resolve w p q).winner = q := by
  rw [winner_eq]
  split
  · exact .inl rfl
  · exact .inr rfl

/-- Where there is a safety policy one wins. -/
theorem winner_safety (safe : p.priority = .safety ∨ q.priority = .safety) :
    (resolve w p q).winner.priority = .safety := by
  by_cases both : p.priority = .safety ∧ q.priority = .safety
  · rcases winner_eq_or w p q with here | global
    · rw [here]
      exact both.1
    · rw [global]
      exact both.2
  · have sides : choose w p q = (if isSafety p then .here else .global, .safetyPriority) := by
      have apart : (isSafety p != isSafety q) = true := by
        rw [bne_iff_ne, ne_eq, Bool.eq_iff_iff, isSafety_iff, isSafety_iff]
        tauto
      rw [choose, if_pos apart]
    rw [winner_eq, sides]
    by_cases first : p.priority = .safety
    · simp [isSafety, first]
    · simpa [isSafety, first] using safe.resolve_left first

theorem safety_of_winner (safe : (resolve w p q).winner.priority = .safety) :
    p.priority = .safety ∨ q.priority = .safety := by
  rcases winner_eq_or w p q with here | global
  · exact .inl (here ▸ safe)
  · exact .inr (global ▸ safe)

end Safety

/-! ## Who beats whom -/

theorem differ_iff {a b : Rat} : differ a b = true ↔ tolerance < |a - b| := by
  rw [differ, decide_eq_true_iff, Scalar.magnitude_eq_abs]

theorem not_differ_iff {a b : Rat} : differ a b = false ↔ |a - b| ≤ tolerance := by
  rw [← Bool.not_eq_true, differ_iff, not_lt]

theorem tolerance_pos : (0 : Rat) < tolerance := by
  change (0 : Rat) < 1e-9
  norm_num

/-- Whether neither kind nor score nor time tells two policies apart. -/
structure Level (w : WeightsOf Rat) (p q : PolicyOf Rat) : Prop where
  kind : p.priority = .safety ↔ q.priority = .safety
  score : |weighted w p - weighted w q| ≤ tolerance
  time : p.time = q.time

/-- Whether nothing but its place tells a policy from another. -/
def Tied (w : WeightsOf Rat) (p q : PolicyOf Rat) : Prop := Level w p q ∧ p.scope = q.scope

/-- Whether one policy beats another, and by which rule. The rules count in this order. -/
inductive Beats (w : WeightsOf Rat) (p q : PolicyOf Rat) : Reason → Prop
  | safety (safe : p.priority = .safety) (other : q.priority ≠ .safety) : Beats w p q .safetyPriority
  | score (kind : p.priority = .safety ↔ q.priority = .safety) (more : weighted w q + tolerance < weighted w p) :
    Beats w p q .higherScore
  | time (kind : p.priority = .safety ↔ q.priority = .safety) (close : |weighted w p - weighted w q| ≤ tolerance)
    (later : q.time.before p.time = true) : Beats w p q .moreRecent
  | scope (level : Level w p q) (here : p.scope = .here) (there : q.scope = .swarm) : Beats w p q .localTieBreak

section Rules
variable {w : WeightsOf Rat} {p q : PolicyOf Rat} {r : Reason}

theorem Level.symm (h : Level w p q) : Level w q p :=
  ⟨h.kind.symm, abs_sub_comm (weighted w p) (weighted w q) ▸ h.score, h.time.symm⟩

/-- Of two policies that are not tied one beats the other. -/
theorem beats_or_beats (apart : ¬Tied w p q) : ∃ r, Beats w p q r ∨ Beats w q p r := by
  by_cases kind : p.priority = .safety ↔ q.priority = .safety
  · by_cases close : |weighted w p - weighted w q| ≤ tolerance
    · by_cases time : p.time = q.time
      · have level : Level w p q := ⟨kind, close, time⟩
        refine ⟨.localTieBreak, ?_⟩
        cases here : p.scope <;> cases there : q.scope
        case here.swarm => exact .inl (.scope level here there)
        case swarm.here => exact .inr (.scope level.symm there here)
        all_goals exact absurd ⟨level, here.trans there.symm⟩ apart
      · have close' := abs_sub_comm (weighted w p) (weighted w q) ▸ close
        refine ⟨.moreRecent, ?_⟩
        rcases Timestamp.before_or_before time with earlier | later
        · exact .inr (.time kind.symm close' earlier)
        · exact .inl (.time kind close later)
    · refine ⟨.higherScore, ?_⟩
      rw [not_le, lt_abs] at close
      rcases close with more | less
      · exact .inl (.score kind (by linarith))
      · exact .inr (.score kind.symm (by linarith))
  · refine ⟨.safetyPriority, ?_⟩
    by_cases safe : p.priority = .safety
    · exact .inl (.safety safe (by tauto))
    · exact .inr (.safety (by tauto) safe)

theorem kind_eq (kind : p.priority = .safety ↔ q.priority = .safety) : (isSafety p != isSafety q) = false := by
  rw [bne_eq_false_iff_eq, Bool.eq_iff_iff, isSafety_iff, isSafety_iff]
  exact kind

/-- The local policy is chosen if it beats the other. -/
theorem Beats.choose_here (h : Beats w p q r) : choose w p q = (.here, r) := by
  cases h with
  | safety safe other => simp [choose, isSafety, safe, other]
  | score kind more =>
    have apart : differ (weighted w p) (weighted w q) = true :=
      differ_iff.mpr (lt_abs.mpr (.inl (by linarith)))
    have less : weighted w q < weighted w p := by linarith [tolerance_pos]
    simp only [choose, kind_eq kind, apart, if_true]
    rw [if_neg (by decide), if_pos less]
  | time kind close later =>
    have apart := (Timestamp.ne_of_before later).symm
    simp [choose, kind_eq kind, not_differ_iff.mpr close, apart, later]
  | scope level here there => simp [choose, kind_eq level.kind, not_differ_iff.mpr level.score, level.time, here, there]

/-- The other policy is chosen if it beats the local one. -/
theorem Beats.choose_global (h : Beats w p q r) : choose w q p = (.global, r) := by
  cases h with
  | safety safe other => simp [choose, isSafety, safe, other]
  | score kind more =>
    have apart : differ (weighted w q) (weighted w p) = true :=
      differ_iff.mpr (lt_abs.mpr (.inr (by linarith)))
    have less : ¬weighted w p < weighted w q := by linarith [tolerance_pos]
    simp only [choose, kind_eq kind.symm, apart, if_true]
    rw [if_neg (by decide), if_neg less]
  | time kind close later =>
    have apart := Timestamp.ne_of_before later
    have earlier := Timestamp.before_asymm later
    simp [choose, kind_eq kind.symm, not_differ_iff.mpr (abs_sub_comm (weighted w p) (weighted w q) ▸ close), apart,
      earlier]
  | scope level here there =>
    simp [choose, kind_eq level.symm.kind, not_differ_iff.mpr level.symm.score, level.time, here, there]

theorem Tied.choose_here (h : Tied w p q) : choose w p q = (.here, .localTieBreak) := by
  obtain ⟨level, scope⟩ := h
  simp [choose, kind_eq level.kind, not_differ_iff.mpr level.score, level.time, scope]

end Rules

/-- Seen from the two sides a conflict is settled alike, for the same policy and the same reason,
unless the two are tied: then each side keeps its own. Two that are level but for their scopes are
settled for the local scope. -/
theorem resolve_symmetric (w : WeightsOf Rat) (p q : PolicyOf Rat) :
    (¬Tied w p q → (resolve w q p).winner = (resolve w p q).winner ∧
      (resolve w q p).source = (resolve w p q).source.other ∧ (resolve w q p).reason = (resolve w p q).reason) ∧
    (Tied w p q →
      ((resolve w p q).winner = p ∧ (resolve w p q).source = .here ∧ (resolve w p q).reason = .localTieBreak) ∧
        (resolve w q p).winner = q ∧ (resolve w q p).source = .here ∧ (resolve w q p).reason = .localTieBreak) ∧
    (Level w p q → p.scope = .here → q.scope = .swarm →
      ((resolve w p q).winner = p ∧ (resolve w p q).source = .here ∧ (resolve w p q).reason = .localTieBreak) ∧
        (resolve w q p).winner = p ∧ (resolve w q p).source = .global ∧ (resolve w q p).reason = .localTieBreak) := by
  refine ⟨fun apart => ?_, fun tied => ?_, fun level here there => ?_⟩
  · obtain ⟨r, beats | beaten⟩ := beats_or_beats apart
    · simp [resolve, beats.choose_here, beats.choose_global, Source.other]
    · simp [resolve, beaten.choose_here, beaten.choose_global, Source.other]
  · have tied' : Tied w q p := ⟨tied.1.symm, tied.2.symm⟩
    simp [resolve, tied.choose_here, tied'.choose_here]
  · have beats : Beats w p q .localTieBreak := .scope level here there
    simp [resolve, beats.choose_here, beats.choose_global]

end Arbitration

end FleetCoordination
