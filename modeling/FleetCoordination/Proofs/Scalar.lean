import FleetCoordination.Scalar
/-!
# Order of floats

Of two floats that are numbers, one is less than the other or not below it. With a NaN
neither holds.
-/
namespace FleetCoordination.Scalar
open Float.Model

/-- Two floats that are numbers compare, and the other way round the other way. -/
theorem comparable {u v : UnpackedFloat} (hu : u.isNaN = false) (hv : v.isNaN = false) :
    ∃ o, u.compare v = some o ∧ v.compare u = some o.swap := by
  have magnitudes (e e' : Int) (m m' : Nat) :
      (compare e' e).then (compare m' m) = ((compare e e').then (compare m m')).swap := by
    rw [Ordering.swap_then, Int.compare_swap, Nat.compare_swap]
  cases u with
  | notANumber => cases hu
  | infinity s =>
    cases v with
    | notANumber => cases hv
    | infinity s' => cases s <;> cases s' <;> exact ⟨_, rfl, rfl⟩
    | zero | finite => cases s <;> exact ⟨_, rfl, rfl⟩
  | zero s =>
    cases v with
    | notANumber => cases hv
    | zero => exact ⟨_, rfl, rfl⟩
    | infinity s' | finite s' => cases s' <;> exact ⟨_, rfl, rfl⟩
  | finite s m e =>
    cases v with
    | notANumber => cases hv
    | infinity s' => cases s' <;> exact ⟨_, rfl, rfl⟩
    | zero => cases s <;> exact ⟨_, rfl, rfl⟩
    | finite s' m' e' =>
      cases s <;> cases s'
      · exact ⟨_, rfl, congrArg (fun o => some (Ordering.swap o)) (magnitudes e e' m m')⟩
      · exact ⟨_, rfl, rfl⟩
      · exact ⟨_, rfl, rfl⟩
      · exact ⟨_, rfl, congrArg some (magnitudes e e' m m')⟩

theorem not_lt_iff_le {a b : Float} (ha : a.isNaN = false) (hb : b.isNaN = false) : ¬a < b ↔ b ≤ a := by
  obtain ⟨o, forth, back⟩ := comparable (u := a.toModel.unpack) (v := b.toModel.unpack) ha hb
  have less : a < b ↔ (some o == some .lt) = true := forth ▸ decide_eq_true_iff
  have most : b ≤ a ↔ (some o.swap).any (·.isLE) = true := back ▸ decide_eq_true_iff
  rw [less, most]
  cases o <;> decide

end FleetCoordination.Scalar
