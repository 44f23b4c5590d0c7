import Mathlib.Data.List.Perm.Basic
import FleetCoordination.Proofs.Reassignment.Planning
import FleetCoordination.Proofs.Scalar.Rank
/-!
# Failover

A primary that has failed is replaced whenever it can be: by the backup that is best off,
and by a standby agent only if there is no backup to be had. The rules after failover make
no failover plans.
-/
namespace FleetCoordination.Reassignment

/-! ## The fittest -/

section Fittest
variable {a b c : AgentId × Float} {xs : List (AgentId × Float)}

theorem fitter_iff : fitter a b = true ↔
    Scalar.floatRank a.2 < Scalar.floatRank b.2 ∨ Scalar.floatRank a.2 = Scalar.floatRank b.2 ∧ a.1 < b.1 := by
  have order : Scalar.order a.2 b.2 = compare (Scalar.floatRank a.2) (Scalar.floatRank b.2) := rfl
  rw [fitter, order]
  cases outcome : compare (Scalar.floatRank a.2) (Scalar.floatRank b.2) with
  | lt => simp [Int.compare_eq_lt.mp outcome]
  | eq => simp [Int.compare_eq_eq.mp outcome]
  | gt =>
    have above := Int.compare_eq_gt.mp outcome
    simp [Int.lt_asymm above, Int.ne_of_gt above]

theorem fitter_trans (h : fitter a b = true) (h' : fitter b c = true) : fitter a c = true := by
  rw [fitter_iff] at *
  rcases h with less | ⟨same, first⟩ <;> rcases h' with less' | ⟨same', first'⟩
  -- by risk at each step, at one of the two, or by name at both
  · exact .inl (Int.lt_trans less less')
  · exact .inl (same' ▸ less)
  · exact .inl (same ▸ less')
  · exact .inr ⟨same.trans same', String.lt_trans first first'⟩

theorem eq_or_fitter (h : fitter b a = false) : a = b ∨ fitter a b = true := by
  rw [← Bool.not_eq_true, fitter_iff, not_or, not_and, Int.not_lt, String.not_lt] at h
  obtain ⟨least, first⟩ := h
  rw [fitter_iff]
  by_cases same : Scalar.floatRank a.2 = Scalar.floatRank b.2
  · by_cases name : a.1 = b.1
    · exact .inl (Prod.ext name (Scalar.order_eq_eq.mp (Int.compare_eq_eq.mpr same)))
    · have before : a.1 < b.1 :=
        Decidable.not_not.mp fun not => name (String.le_antisymm (first same.symm) (String.not_lt.mp not))
      exact .inr (.inr ⟨same, before⟩)
  · exact .inr (.inl (by omega))

theorem fittest_eq_none : fittest xs = none ↔ xs = [] := by
  cases xs with
  | nil => simp [fittest]
  | cons a rest =>
    simp only [fittest, reduceCtorEq, iff_false]
    cases fittest rest with
    | none => exact Option.some_ne_none a
    | some b => dsimp only; split <;> exact Option.some_ne_none _

/-- The fittest is fitter than all others. -/
theorem fittest_least (h : fittest xs = some a) : ∀ b ∈ xs, a = b ∨ fitter a b = true := by
  induction xs generalizing a with
  | nil => cases h
  | cons x rest ih =>
    rw [fittest] at h
    cases found : fittest rest with
    | none =>
      obtain rfl : x = a := by simpa [found] using h
      simp [fittest_eq_none.mp found]
    | some y =>
      have least := ih found
      rw [found] at h
      cases best : fitter y x with
      | true =>
        obtain rfl : y = a := by simpa [best] using h
        exact List.forall_mem_cons.mpr ⟨.inr best, least⟩
      | false =>
        obtain rfl : x = a := by simpa [best] using h
        refine List.forall_mem_cons.mpr ⟨.inl rfl, fun b hb => ?_⟩
        rcases eq_or_fitter best with rfl | above
        · exact least b hb
        · rcases least b hb with rfl | further
          · exact .inr above
          · exact .inr (fitter_trans above further)

end Fittest

/-! ## The successor -/

/-- Whether an agent holds a role, is well by its latest risk, and may be named. -/
structure Eligible (o : Outlook) (roles : RoleTable) (role : Role) (agent : AgentId) (risk : Float) : Prop where
  holds : roles.get? agent = some role
  latest : o.latest agent = some risk
  healthy : risk < o.settings.unhealthyRisk
  free : o.debounced agent = false

section Successor
variable {o : Outlook} {roles : RoleTable} {role : Role} {a b : AgentId} {risk risk' : Float}

theorem healthy_iff : o.healthy a = true ↔ ∃ risk, o.latest a = some risk ∧ risk < o.settings.unhealthyRisk := by
  unfold Outlook.healthy
  cases o.latest a <;> simp

theorem mem_candidates {d : Draft} : (a, risk) ∈ candidates o d role ↔
    (a, role) ∈ d.roles.entries ∧ Free o d a ∧ o.latest a = some risk ∧ risk < o.settings.unhealthyRisk := by
  have chosen : (a, risk) ∈ candidates o d role ↔
      (a, role) ∈ d.roles.entries ∧ (o.healthy a = true ∧ Free o d a) ∧ o.latest a = some risk := by
    simp [candidates, mem_holders, Free, and_assoc]
  rw [chosen, healthy_iff]
  constructor
  · rintro ⟨holds, ⟨⟨risk', known, healthy⟩, free⟩, latest⟩
    obtain rfl := Option.some.inj (known.symm.trans latest)
    exact ⟨holds, free, latest, healthy⟩
  · rintro ⟨holds, free, latest, healthy⟩
    exact ⟨holds, ⟨⟨risk, latest, healthy⟩, free⟩, latest⟩

theorem eligible_iff (ordered : roles.Ordered) :
    Eligible o roles role a risk ↔ (a, risk) ∈ candidates o { roles } role := by
  rw [mem_candidates, ← ordered.get?_eq_some]
  constructor
  · rintro ⟨holds, latest, healthy, free⟩
    exact ⟨holds, ⟨List.not_mem_nil, free⟩, latest, healthy⟩
  · rintro ⟨holds, ⟨-, free⟩, latest, healthy⟩
    exact ⟨holds, latest, healthy, free⟩

/-- Whether one agent goes before another: by its risk, of the two zeros minus zero first, and by
its name if the risks are the same. -/
def Before (a b : AgentId × Float) : Prop :=
  a.2 < b.2 ∨ a.2 = -0.0 ∧ b.2 = 0.0 ∨ a.2 = b.2 ∧ a.1 < b.1

theorem Eligible.before (h : Eligible o roles role a risk) (h' : Eligible o roles role b risk')
    (better : fitter (a, risk) (b, risk') = true) : Before (a, risk) (b, risk') := by
  rcases fitter_iff.mp better with less | ⟨same, first⟩
  · have less : Scalar.order risk risk' = .lt := Int.compare_eq_lt.mpr less
    rcases (Scalar.order_eq_lt (Scalar.lt_iff.mp h.healthy).1 (Scalar.lt_iff.mp h'.healthy).1).mp less with less | zeros
    · exact .inl less
    · exact .inr (.inl zeros)
  · exact .inr (.inr ⟨Scalar.order_eq_eq.mp (Int.compare_eq_eq.mpr same), first⟩)

/-- What a search over the agents of a role comes to. -/
theorem fittest_candidates (ordered : roles.Ordered) (h : fittest (candidates o { roles } role) = some (a, risk)) :
    Eligible o roles role a risk ∧
      ∀ b risk', Eligible o roles role b risk' → b ≠ a → Before (a, risk) (b, risk') := by
  have eligible := (eligible_iff ordered).mpr (fittest_mem h)
  refine ⟨eligible, fun b risk' other differ => ?_⟩
  rcases fittest_least h (b, risk') ((eligible_iff ordered).mp other) with same | better
  · exact (differ (Prod.mk.inj same).1.symm).elim
  · exact eligible.before other better

theorem not_eligible (ordered : roles.Ordered) (h : fittest (candidates o { roles } role) = none) (a : AgentId)
    (risk : Float) : ¬Eligible o roles role a risk := by
  intro eligible
  have found := (eligible_iff ordered).mp eligible
  rw [fittest_eq_none.mp h] at found
  cases found

end Successor

/-! ## Failover plans -/

theorem gate_of_free {o : Outlook} {d : Draft} {a : AgentId} (free : Free o d a) : d.gate o a = (d, true) := by
  simp [Draft.gate, free.1, free.2]

/-- A primary is handed over if it has failed, may be named and has a successor. Otherwise it is
at most counted. -/
theorem failover_cases (o : Outlook) (d : Draft) (primary : AgentId) :
    (∃ successor role, o.degraded primary = true ∧ replacement o d = some (successor, role) ∧
      failover o d primary = d.add (failoverPlan o primary successor role)) ∨
    ∃ n, failover o d primary = { d with debounced := n } ∧
      ¬(o.degraded primary = true ∧ Free o d primary ∧ replacement o d ≠ none) := by
  unfold failover
  split
  · next degraded =>
    by_cases free : Free o d primary
    · rw [gate_of_free free]
      cases found : replacement o d with
      | some c => exact .inl ⟨c.1, c.2, degraded, rfl, by simp only [found]⟩
      | none => exact .inr ⟨d.debounced, by simp only [found], by simp⟩
    · obtain ⟨free', -⟩ | ⟨n, gate⟩ := gate_cases o d primary
      · exact (free free').elim
      · rw [gate]
        exact .inr ⟨n, rfl, fun ⟨_, free', _⟩ => free free'⟩
  · next well => exact .inr ⟨d.debounced, rfl, fun ⟨degraded, _⟩ => well degraded⟩

namespace Draft

/-- The failover plans of a draft. -/
def failovers (d : Draft) : List Plan := d.plans.filter (·.trigger = .failover)

variable {o : Outlook} {d : Draft}

theorem failovers_addIfFree {a : AgentId} {p : Plan} (other : p.trigger ≠ .failover) :
    (d.addIfFree o a p).failovers = d.failovers := by
  unfold addIfFree
  obtain ⟨-, gate⟩ | ⟨n, gate⟩ := gate_cases o d a
  · rw [gate]
    simp [add, failovers, List.filter_append, other]
  · rw [gate]
    rfl

theorem failovers_foldl {β : Type} {f : Draft → β → Draft} (step : ∀ d x, (f d x).failovers = d.failovers) (xs : List β)
    (d : Draft) : (xs.foldl f d).failovers = d.failovers := by
  induction xs generalizing d with
  | nil => rfl
  | cons x xs ih => exact (ih _).trans (step d x)

end Draft

section Rules
variable (o : Outlook) (d : Draft)

theorem failovers_demotions : (demotions o d).failovers = d.failovers := by
  unfold demotions
  split
  · refine Draft.failovers_foldl (fun d entry => ?_) _ d
    unfold demote
    dsimp only
    split
    · split
      · rfl
      · exact Draft.failovers_addIfFree (by simp [demotionPlan])
    · rfl
  · rfl

theorem failovers_retirements : (retirements o d).failovers = d.failovers :=
  Draft.failovers_foldl (fun _ _ => Draft.failovers_addIfFree (by simp [safeModePlan])) _ d

theorem failovers_promotions : (promotions o d).failovers = d.failovers := by
  refine Draft.failovers_foldl (fun d entry => ?_) _ d
  have other {agent : AgentId} {role target : Role} {displaced : Option AgentId} :
      (recoveryPlan o agent role target displaced).trigger ≠ .failover := by simp [recoveryPlan]
  unfold promote
  dsimp only
  split
  · rfl
  · split
    · rfl
    split
    · exact Draft.failovers_addIfFree other
    · split
      · exact Draft.failovers_addIfFree other
      · rfl

/-- Only the first rule makes failover plans. -/
theorem failovers_plan (roles : RoleTable) : (plan o roles).failovers = (failovers o { roles }).failovers := by
  rw [plan, failovers_promotions, failovers_retirements, failovers_demotions]

end Rules

/-- With one primary there is one agent to go over. -/
theorem failovers_sole {o : Outlook} {roles : RoleTable} (ordered : roles.Ordered) {primary : AgentId}
    (sole : ∀ a, roles.get? a = some .primary ↔ a = primary) :
    failovers o { roles } = failover o { roles } primary := by
  have once : (Draft.holders { roles } .primary).Nodup := (ordered.filter _).nodup_keys
  have holders : Draft.holders { roles } .primary = [primary] := by
    refine List.perm_singleton.mp ((List.perm_ext_iff_of_nodup once (List.nodup_singleton _)).mpr fun a => ?_)
    rw [mem_holders, ← ordered.get?_eq_some, sole, List.mem_singleton]
  rw [failovers, holders, List.foldl_cons, List.foldl_nil]

theorem changes_failover {o : Outlook} {roles : RoleTable} {primary : AgentId} (degraded : o.degraded primary = true)
    (free : o.debounced primary = false) : (failover o { roles } primary).failovers.map (·.changes) =
      (replacement o { roles }).toList.map fun r => [⟨primary, some .primary, r.2⟩, ⟨r.1, some r.2, .primary⟩] := by
  obtain ⟨successor, role, -, found, planned⟩ | ⟨n, planned, none⟩ := failover_cases o { roles } primary
  · rw [planned, found]
    rfl
  · have none : replacement o { roles } = .none := by simpa [degraded, Free, free] using none
    rw [planned, none]
    rfl

/-- A sole primary that has failed and may be named is replaced if a backup or a standby agent is
eligible, in a single plan: by an eligible backup if there is one, and by the one that goes before
all others that are eligible and have its role. It is not replaced if no agent is eligible. -/
theorem failover_completes (o : Outlook) {roles : RoleTable} (ordered : roles.Ordered) {primary : AgentId}
    (sole : ∀ a, roles.get? a = some .primary ↔ a = primary)
    (failed : o.settings.degradedThreshold ≤ o.streak primary) (free : o.debounced primary = false) :
    let changes := ((plan o roles).plans.filter (·.trigger = .failover)).map (·.changes)
    let eligible := ∃ role a risk, (role = .backup ∨ role = .standby) ∧ Eligible o roles role a risk
    (eligible → ∃ successor role risk, Eligible o roles role successor risk ∧
      (role = .backup ∨ role = .standby ∧ ∀ a risk', ¬Eligible o roles .backup a risk') ∧
      (∀ a risk', Eligible o roles role a risk' → a ≠ successor → Before (successor, risk) (a, risk')) ∧
      changes = [[⟨primary, some .primary, role⟩, ⟨successor, some role, .primary⟩]]) ∧
      (¬eligible → changes = []) := by
  intro changes eligible
  have planned : changes = (replacement o { roles }).toList.map fun r =>
      [⟨primary, some .primary, r.2⟩, ⟨r.1, some r.2, .primary⟩] := by
    have degraded : o.degraded primary = true := decide_eq_true failed
    rw [← changes_failover degraded free, ← failovers_sole ordered sole, ← failovers_plan]
    rfl
  rw [planned]
  cases backup : fittest (candidates o { roles } .backup) with
  | some c =>
    obtain ⟨fit, first⟩ := fittest_candidates ordered backup
    have found : replacement o { roles } = some (c.1, .backup) := by simp [replacement, backup]
    rw [found]
    exact ⟨fun _ => ⟨c.1, .backup, c.2, fit, .inl rfl, first, rfl⟩, fun none => (none ⟨_, _, _, .inl rfl, fit⟩).elim⟩
  | none =>
    have noBackup := not_eligible ordered backup
    cases standby : fittest (candidates o { roles } .standby) with
    | some c =>
      obtain ⟨fit, first⟩ := fittest_candidates ordered standby
      have found : replacement o { roles } = some (c.1, .standby) := by simp [replacement, backup, standby]
      rw [found]
      exact ⟨fun _ => ⟨c.1, .standby, c.2, fit, .inr ⟨rfl, noBackup⟩, first, rfl⟩,
        fun none => (none ⟨_, _, _, .inr rfl, fit⟩).elim⟩
    | none =>
      have noStandby := not_eligible ordered standby
      have found : replacement o { roles } = none := by simp [replacement, backup, standby]
      rw [found]
      refine ⟨?_, fun _ => rfl⟩
      rintro ⟨role, a, risk, rfl | rfl, fit⟩
      · exact (noBackup a risk fit).elim
      · exact (noStandby a risk fit).elim

/-- A primary that has failed, three backups that are well, and a standby agent that is better off. -/
def contested : RoleTable :=
  ⟨[("B", .primary), ("C", .backup), ("D", .backup), ("E", .backup), ("F", .standby)]⟩

/-- What the leader of the five knows of them. -/
def contest : Outlook :=
  let known (risk : Float) (streak : Nat) : HealthHistory :=
    { thresholds := thresholds {}, recent := HealthHistory.unsampled.push risk, streak }
  { self := "A", settings := {}, tracker := none, now := .ofSeconds 100
    memory := { histories := ⟨[("B", known 0.9 3), ("C", known 0.2 0), ("D", known 0.1 0), ("E", known 0.1 0),
      ("F", known 0.0 0)]⟩ }
    windows := { hysteresis := 300000000000, recovery := 90000000000 } }

/-- Of the two backups with the least risk the first takes over. -/
theorem failover_completes_contested :
    let changes := ((plan contest contested).plans.filter (·.trigger = .failover)).map (·.changes)
    (∃ successor role risk, Eligible contest contested role successor risk ∧
      (∀ a risk', Eligible contest contested role a risk' → a ≠ successor → Before (successor, risk) (a, risk')) ∧
      changes = [[⟨"B", some .primary, role⟩, ⟨successor, some role, .primary⟩]]) ∧
      changes = [[⟨"B", some .primary, .backup⟩, ⟨"D", some .backup, .primary⟩]] := by
  have ordered : contested.Ordered := by unfold Table.Ordered; decide
  have sole a : contested.get? a = some .primary ↔ a = "B" := by
    rw [ordered.get?_eq_some]
    simp [contested]
  have eligible : Eligible contest contested .backup "C" 0.2 :=
    ⟨rfl, rfl, by decide +kernel, rfl⟩
  obtain ⟨successor, role, risk, fit, -, first, changes⟩ :=
    (failover_completes contest ordered sole (by decide) rfl).1 ⟨_, _, _, .inl rfl, eligible⟩
  exact ⟨⟨successor, role, risk, fit, first, changes⟩, by decide +kernel⟩

end FleetCoordination.Reassignment
