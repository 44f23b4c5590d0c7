import Mathlib.Data.List.Perm.Subperm
import Mathlib.Tactic.GCongr
import Mathlib.Tactic.Linarith
import Mathlib.Tactic.Positivity
import FleetCoordination.Manifest.Validation
import FleetCoordination.Proofs.Scalar.Exact
import FleetCoordination.Proofs.Scalar.Rank
import FleetCoordination.Safety
/-!
# Safety simulation

What a simulator says of an action does not hang on the order in which the links were listed: it
counts the best of them. It follows a table of risks, and what it blocks it goes on to block when
links are added or more is asked for.
-/
namespace FleetCoordination

/-! ## Ranking -/

namespace NeighborhoodOf
variable {α β : Type} [Scalar α] [LinearOrder β]

/-- A value by which the scalars are ordered, and told apart. -/
structure Ranks (rank : α → β) : Prop where
  less : ∀ a b, Scalar.order a b = .lt ↔ rank a < rank b
  same : ∀ a b, Scalar.order a b = .eq ↔ rank a = rank b
  injective : ∀ a b, rank a = rank b → a = b

namespace Ranks
variable {rank : α → β} (ranks : Ranks rank) {a b c : AgentId × α} {links links' : List (AgentId × α)}
include ranks

/-- Better links come first, and of equal ones that to the agent of lesser name. -/
theorem precedes_iff : precedes a b = true ↔ rank b.2 < rank a.2 ∨ rank a.2 = rank b.2 ∧ a.1 ≤ b.1 := by
  rw [precedes]
  cases order : Scalar.order b.2 a.2 with
  | lt => simp [(ranks.less ..).mp order]
  | eq => simp [(ranks.same ..).mp order]
  | gt =>
    have less : ¬rank b.2 < rank a.2 := fun less => by simp [(ranks.less ..).mpr less] at order
    have apart : rank a.2 ≠ rank b.2 := fun same => by simp [(ranks.same ..).mpr same.symm] at order
    simp [less, apart]

theorem precedes_trans (h : precedes a b = true) (h' : precedes b c = true) : precedes a c = true := by
  rw [ranks.precedes_iff] at *
  rcases h with less | ⟨same, first⟩ <;> rcases h' with less' | ⟨same', first'⟩
  -- by quality at each step, at one of the two, or by name at both
  · exact .inl (less'.trans less)
  · exact .inl (same' ▸ less)
  · exact .inl (same ▸ less')
  · exact .inr ⟨same.trans same', String.le_trans first first'⟩

theorem precedes_total (a b : AgentId × α) : (precedes a b || precedes b a) = true := by
  rw [Bool.or_eq_true, ranks.precedes_iff, ranks.precedes_iff]
  rcases lt_trichotomy (rank a.2) (rank b.2) with less | same | more
  · exact .inr (.inl less)
  · exact (String.le_total a.1 b.1).imp (fun first => .inr ⟨same, first⟩) fun first => .inr ⟨same.symm, first⟩
  · exact .inl (.inl more)

theorem precedes_antisymm (h : precedes a b = true) (h' : precedes b a = true) : a = b := by
  rw [ranks.precedes_iff] at h h'
  rcases h with less | ⟨same, first⟩ <;> rcases h' with less' | ⟨same', first'⟩
  · exact absurd less' less.asymm
  · exact absurd same' less.ne
  · exact absurd same.symm less'.ne'
  · exact Prod.ext (String.le_antisymm first first') (ranks.injective _ _ same)

theorem pairwise_ranked (links : List (AgentId × α)) :
    (ranked links).links.Pairwise fun a b => precedes a b = true :=
  List.pairwise_mergeSort (fun a b _ (first : precedes a b = true) => ranks.precedes_trans first)
    ranks.precedes_total links

theorem ranked_perm (same : links'.Perm links) : ranked links' = ranked links := by
  have perm : (ranked links').links.Perm (ranked links).links :=
    (List.mergeSort_perm ..).trans (same.trans (List.mergeSort_perm ..).symm)
  exact congrArg NeighborhoodOf.mk (perm.eq_of_pairwise (fun _ _ _ _ => ranks.precedes_antisymm)
    (ranks.pairwise_ranked _) (ranks.pairwise_ranked _))

end Ranks

theorem ranks_exact : Ranks (fun x : Rat => x) :=
  ⟨fun _ _ => Scalar.order_eq_lt_iff, fun _ _ => Scalar.order_eq_eq_iff, fun _ _ => id⟩

theorem ranks_float : Ranks Scalar.floatRank := by
  refine ⟨fun _ _ => Int.compare_eq_lt, fun _ _ => Int.compare_eq_eq, fun _ _ same => ?_⟩
  exact Scalar.order_eq_eq.mp (Int.compare_eq_eq.mpr same)

/-- As many links as there may be at most that are the best of all, the best first, with their agents. -/
structure Best (links : List (AgentId × Rat)) (most : Nat) (agents : List AgentId)
    (best rest : List (AgentId × Rat)) : Prop where
  perm : (best ++ rest).Perm links
  agents : agents = best.map (·.1)
  length : best.length = min most links.length
  order : best.Pairwise fun a b => b.2 < a.2 ∨ a.2 = b.2 ∧ a.1 ≤ b.1
  better : ∀ a ∈ best, ∀ b ∈ rest, b.2 < a.2 ∨ a.2 = b.2 ∧ a.1 ≤ b.1

theorem size_ranked (links : List (AgentId × α)) : (ranked links).links.length = links.length :=
  (List.mergeSort_perm ..).length_eq

theorem best_nearest (links : List (AgentId × Rat)) (most : Nat) :
    ∃ best rest, Best links most ((ranked links).nearest most) best rest := by
  have split := List.take_append_drop most (ranked links).links
  have order := (ranks_exact.pairwise_ranked links).imp ranks_exact.precedes_iff.mp
  rw [← split, List.pairwise_append] at order
  have perm : (ranked links).links.Perm links := List.mergeSort_perm ..
  refine ⟨_, _, split.symm ▸ perm, rfl, ?_, order.1, order.2.2⟩
  rw [List.length_take, size_ranked]

theorem length_nearest (links : List (AgentId × α)) (most : Nat) :
    ((ranked links).nearest most).length = min most links.length := by
  simp [nearest, size_ranked]

end NeighborhoodOf

/-! ## The table of risks -/

/-- The exact value of a number. -/
def Json.rational? : Json → Option Rat
  | .int n => some n
  | .float x => Scalar.rational? x
  | _ => none

/-- The exact value of a field, if it is there and a number. -/
def Json.quantity? (params : Json) (name : String) : Option Rat := (params.field? name).bind rational?

/-- The actions whose risk is known. -/
def knownActions : List String := ["attitude_adjust", "load_shed", "thermal_maneuver", "safe_mode", "role_reassignment"]

/-- The risk of an action by itself, if the number that it depends on is there. -/
inductive Charged (unknownRisk : Rat) (params : Json) (action : String) : Rat → Prop
  | attitude {angle : Rat} (named : action = "attitude_adjust")
    (given : params.quantity? "angle_degrees" = some angle) : Charged unknownRisk params action (|angle| / 10 * 0.30)
  | loadShed {percent : Rat} (named : action = "load_shed")
    (given : params.quantity? "shed_percent" = some percent) :
    Charged unknownRisk params action (max 0 ((percent - 15) / 100))
  | thermal {delta : Rat} (named : action = "thermal_maneuver")
    (given : params.quantity? "delta_temp_c" = some delta) : Charged unknownRisk params action (max 0 (delta / 5 - 1))
  | safeMode (named : action = "safe_mode") : Charged unknownRisk params action 0
  | reassignment (named : action = "role_reassignment") : Charged unknownRisk params action 0.05
  | unknown (other : action ∉ knownActions) : Charged unknownRisk params action unknownRisk

/-- Whether more is asked for of an action: a turn by a greater angle, or more of the number that its
risk depends on. -/
inductive Raised (before after : Json) (action : String) : Prop
  | attitude {x y : Rat} (named : action = "attitude_adjust") (was : before.quantity? "angle_degrees" = some x)
    (given : after.quantity? "angle_degrees" = some y) (more : |x| ≤ |y|)
  | loadShed {x y : Rat} (named : action = "load_shed") (was : before.quantity? "shed_percent" = some x)
    (given : after.quantity? "shed_percent" = some y) (more : x ≤ y)
  | thermal {x y : Rat} (named : action = "thermal_maneuver") (was : before.quantity? "delta_temp_c" = some x)
    (given : after.quantity? "delta_temp_c" = some y) (more : x ≤ y)

section Table
variable {u base : Rat} {params after : Json} {action : String}

theorem Charged.nonneg (h : Charged u params action base) (low : 0 ≤ u) : 0 ≤ base := by
  cases h with
  | attitude => positivity
  | loadShed => exact le_max_left ..
  | thermal => exact le_max_left ..
  | safeMode => exact le_refl _
  | reassignment => norm_num
  | unknown => exact low

/-- The more is asked for, the greater the risk. -/
theorem Raised.charged (h : Raised params after action) (u : Rat) :
    ∃ base more, base ≤ more ∧ Charged u params action base ∧ Charged u after action more := by
  cases h with
  | attitude named was given more => exact ⟨_, _, by gcongr, .attitude named was, .attitude named given⟩
  | loadShed named was given more => exact ⟨_, _, by gcongr, .loadShed named was, .loadShed named given⟩
  | thermal named was given more => exact ⟨_, _, by gcongr, .thermal named was, .thermal named given⟩

end Table

/-! ## The curves -/

namespace Maneuver
variable {u base : Rat} {params : Json} {action : String}

theorem attitudeRisk_eq (angle : Rat) : attitudeRisk angle = |angle| / 10 * 0.30 := by
  have ten : (10.0 : Rat) = 10 := by norm_num
  change Scalar.magnitude angle / (10.0 : Rat) * 0.30 = _
  rw [Scalar.magnitude_eq_abs, ten]

theorem loadShedRisk_eq (percent : Rat) : loadShedRisk percent = max 0 ((percent - 15) / 100) := by
  have zero : (0.0 : Rat) = 0 := by norm_num
  have fifteen : (15.0 : Rat) = 15 := by norm_num
  have hundred : (100.0 : Rat) = 100 := by norm_num
  change (if percent ≤ (15.0 : Rat) then (0.0 : Rat) else (percent - 15.0) / 100.0) = _
  rw [zero, fifteen, hundred]
  split
  · exact (max_eq_left (by linarith)).symm
  · exact (max_eq_right (by linarith)).symm

theorem thermalRisk_eq (delta : Rat) : thermalRisk delta = max 0 (delta / 5 - 1) := by
  have zero : (0.0 : Rat) = 0 := by norm_num
  have one : (1.0 : Rat) = 1 := by norm_num
  have five : (5.0 : Rat) = 5 := by norm_num
  change (if delta ≤ (5.0 : Rat) then (0.0 : Rat) else delta / 5.0 - 1.0) = _
  rw [zero, one, five]
  split
  · exact (max_eq_left (by linarith)).symm
  · exact (max_eq_right (by linarith)).symm

theorem of_attitude : of Json.rational? "attitude_adjust" params = .attitude (params.quantity? "angle_degrees") := by
  simp [of, Json.quantity?]

theorem of_loadShed : of Json.rational? "load_shed" params = .loadShed (params.quantity? "shed_percent") := by
  simp [of, Json.quantity?]

theorem of_thermal : of Json.rational? "thermal_maneuver" params = .thermal (params.quantity? "delta_temp_c") := by
  simp [of, Json.quantity?]

theorem of_safeMode : of Json.rational? "safe_mode" params = .safeMode := by simp [of]

theorem of_reassignment : of Json.rational? "role_reassignment" params = .reassignment := by
  simp [of, RoleReassignment.action]

theorem of_unknown (other : action ∉ knownActions) : of Json.rational? action params = .unknown := by
  simp only [knownActions, List.mem_cons, List.not_mem_nil, not_or] at other
  simp [of, RoleReassignment.action, other]

/-- The table gives the base risk of an action that lacks no number. -/
theorem baseRisk_of_charged (h : Charged u params action base) :
    (of Json.rational? action params).missing? = none ∧ (of Json.rational? action params).baseRisk u = base := by
  cases h with
  | attitude named given =>
    rw [named, of_attitude, given]
    exact ⟨rfl, attitudeRisk_eq _⟩
  | loadShed named given =>
    rw [named, of_loadShed, given]
    exact ⟨rfl, loadShedRisk_eq _⟩
  | thermal named given =>
    rw [named, of_thermal, given]
    exact ⟨rfl, thermalRisk_eq _⟩
  | safeMode named =>
    have zero : (0.0 : Rat) = 0 := by norm_num
    rw [named, of_safeMode]
    exact ⟨rfl, zero⟩
  | reassignment named =>
    rw [named, of_reassignment]
    exact ⟨rfl, rfl⟩
  | unknown other =>
    rw [of_unknown other]
    exact ⟨rfl, rfl⟩

theorem charged_unique {base' : Rat} (h : Charged u params action base) (h' : Charged u params action base') :
    base = base' :=
  (baseRisk_of_charged h).2.symm.trans (baseRisk_of_charged h').2

theorem charged_of_present (present : (of Json.rational? action params).missing? = none) :
    ∃ base, Charged u params action base := by
  by_cases known : action ∈ knownActions
  · simp only [knownActions, List.mem_cons, List.not_mem_nil, or_false] at known
    rcases known with rfl | rfl | rfl | rfl | rfl
    · cases given : params.quantity? "angle_degrees" with
      | none => simp [of_attitude, given, missing?] at present
      | some angle => exact ⟨_, .attitude rfl given⟩
    · cases given : params.quantity? "shed_percent" with
      | none => simp [of_loadShed, given, missing?] at present
      | some percent => exact ⟨_, .loadShed rfl given⟩
    · cases given : params.quantity? "delta_temp_c" with
      | none => simp [of_thermal, given, missing?] at present
      | some delta => exact ⟨_, .thermal rfl given⟩
    · exact ⟨_, .safeMode rfl⟩
    · exact ⟨_, .reassignment rfl⟩
  · exact ⟨_, .unknown known⟩

end Maneuver

/-! ## Verdicts -/

/-- Whether the risks and the factor of a model are shares, as a manifest must have them. -/
def SafetyModelOf.InRange {α : Type} [Scalar α] (m : SafetyModelOf α) : Prop :=
  Scalar.inUnit m.threshold = true ∧ Scalar.inUnit m.propagation = true ∧ Scalar.inUnit m.unknownRisk = true

theorem Manifest.safetyFault?_eq_none {m : SafetyModel} : safetyFault? m = none ↔ m.InRange := by
  unfold safetyFault? riskFault? demand SafetyModelOf.InRange
  cases Scalar.inUnit m.threshold <;> cases Scalar.inUnit m.propagation <;> cases Scalar.inUnit m.unknownRisk <;> simp

namespace SafetyModelOf
variable {m : SafetyModelOf Rat} {x : Maneuver Rat} {n : NeighborhoodOf Rat} {action : String} {params params' : Json}
  {links links' : List (AgentId × Rat)}

/-- What a simulator that is switched on says of an action when all numbers are exact. -/
def judge (m : SafetyModelOf Rat) (action : String) (params : Json) (links : List (AgentId × Rat)) : VerdictOf Rat :=
  m.assess (.of Json.rational? action params) (.ranked links)

theorem total_assess : (m.assess x n).total =
    (m.assess x n).base * (1 + m.propagation * (m.assess x n).affected.length) := by
  have total : (m.assess x n).total =
      (m.assess x n).base + (m.assess x n).base * m.propagation * (m.assess x n).affected.length := rfl
  rw [total]
  ring

theorem safe_assess : (m.assess x n).safe = true ↔ x.missing? = none ∧ (m.assess x n).total ≤ m.threshold := by
  simp only [assess, Bool.and_eq_true, Option.isNone_iff_eq_none, decide_eq_true_eq]

/-- What is blocked is blocked for a reason: a number that is not there, or a risk that is too high. -/
theorem cause_assess : (m.assess x n).cause = none ↔ (m.assess x n).safe = true := by
  have reason : (m.assess x n).cause = if (m.assess x n).safe then none else
      some ((x.missing?.map .missingParameter).getD
        (.tooRisky (m.assess x n).total m.threshold (m.assess x n).affected.length)) := by
    unfold assess
    cases x.missing? <;> rfl
  rw [reason]
  split
  · next safe => simp [safe]
  · next blocked => simp [blocked]

theorem affected_judge : (m.judge action params links).affected.length = min m.maxNeighbors links.length :=
  NeighborhoodOf.length_nearest ..

theorem base_judge {base : Rat} (h : Charged m.unknownRisk params action base) (links : List (AgentId × Rat)) :
    (m.judge action params links).base = base :=
  (Maneuver.baseRisk_of_charged h).2

/-- An action is safe if the table gives a risk for it that is low enough with what its neighbours
take over. -/
theorem safe_judge : (m.judge action params links).safe = true ↔ ∃ base, Charged m.unknownRisk params action base ∧
    base * (1 + m.propagation * (m.judge action params links).affected.length) ≤ m.threshold := by
  refine safe_assess.trans ⟨fun ⟨present, low⟩ => ?_, fun ⟨base, charged, low⟩ => ?_⟩
  · obtain ⟨base, charged⟩ := Maneuver.charged_of_present (u := m.unknownRisk) present
    refine ⟨base, charged, ?_⟩
    rw [total_assess] at low
    rwa [← base_judge charged links]
  · refine ⟨(Maneuver.baseRisk_of_charged charged).1, ?_⟩
    rw [total_assess]
    rwa [← base_judge charged links] at low

/-- What is safe with more links and more asked for is safe with less. -/
theorem safe_of_more (valid : m.InRange) (added : links.length ≤ links'.length)
    (raised : params' = params ∨ Raised params params' action) (safe : (m.judge action params' links').safe = true) :
    (m.judge action params links).safe = true := by
  obtain ⟨-, factor, unknown⟩ := valid
  have factor := (Scalar.inUnit_iff.mp factor).1
  have unknown := (Scalar.inUnit_iff.mp unknown).1
  obtain ⟨most, charged, low⟩ := safe_judge.mp safe
  obtain ⟨base, least, before⟩ : ∃ base, base ≤ most ∧ Charged m.unknownRisk params action base := by
    rcases raised with rfl | raised
    · exact ⟨most, le_refl _, charged⟩
    · obtain ⟨base, more, least, before, after⟩ := raised.charged m.unknownRisk
      exact ⟨base, Maneuver.charged_unique after charged ▸ least, before⟩
  refine safe_judge.mpr ⟨base, before, le_trans ?_ low⟩
  have few : (m.judge action params links).affected.length ≤ (m.judge action params' links').affected.length := by
    rw [affected_judge, affected_judge]
    exact min_le_min_left _ added
  have positive := charged.nonneg unknown
  gcongr

end SafetyModelOf

/-- The verdict on an action is the same in whatever order the links were listed, in floats as in
exact numbers. Those affected are the best of the links, and the action is safe just if the table
gives a risk for it that is low enough with what they take over. What is not safe does not become so
by more links or by more that is asked for. -/
theorem simulation_monotone (m : SafetyModelOf Rat) (valid : m.InRange) (action : String) (params : Json)
    (links : List (AgentId × Rat)) :
    (∀ links', links'.Perm links → m.judge action params links' = m.judge action params links) ∧
    (∀ (s : SafetySimulator) (floats floats' : List (AgentId × Float)), floats'.Perm floats →
      s.simulate action params (.ranked floats') = s.simulate action params (.ranked floats)) ∧
    (∃ best rest, NeighborhoodOf.Best links m.maxNeighbors (m.judge action params links).affected best rest) ∧
    ((m.judge action params links).safe = true ↔ ∃ base, Charged m.unknownRisk params action base ∧
      base * (1 + m.propagation * (m.judge action params links).affected.length) ≤ m.threshold) ∧
    ((m.judge action params links).cause = none ↔ (m.judge action params links).safe = true) ∧
    ∀ links' params', links.Subperm links' → params' = params ∨ Raised params params' action →
      (m.judge action params links).safe = false → (m.judge action params' links').safe = false := by
  refine ⟨fun links' same => ?_, fun s floats floats' same => ?_, NeighborhoodOf.best_nearest ..,
    SafetyModelOf.safe_judge, SafetyModelOf.cause_assess, fun links' params' added raised blocked => ?_⟩
  · rw [SafetyModelOf.judge, NeighborhoodOf.ranks_exact.ranked_perm same, SafetyModelOf.judge]
  · rw [NeighborhoodOf.ranks_float.ranked_perm same]
  · rw [← Bool.not_eq_true] at *
    exact fun safe => blocked (SafetyModelOf.safe_of_more valid added.length_le raised safe)

/-- A cautious model with exact risks. -/
def cautious : SafetyModelOf Rat := ⟨0.10, 0.15, 8, 0.50⟩

/-- A turn by some degrees. -/
def turnBy (degrees : Int) : Json := .object [("angle_degrees", .int degrees)]

/-- A small turn is safe alone but not next to two neighbours, nor then a greater one next to three. -/
theorem simulation_monotone_turn : cautious.InRange ∧ (cautious.judge "attitude_adjust" (turnBy 3) []).safe = true ∧
    (cautious.judge "attitude_adjust" (turnBy 3) [("B", 0.9), ("C", 0.8)]).safe = false ∧
    (cautious.judge "attitude_adjust" (turnBy (-4)) [("D", 0.5), ("B", 0.9), ("C", 0.8)]).safe = false := by
  have valid : cautious.InRange := by
    refine ⟨Scalar.inUnit_iff.mpr ?_, Scalar.inUnit_iff.mpr ?_, Scalar.inUnit_iff.mpr ?_⟩ <;> norm_num [cautious]
  have read (degrees : Int) : (turnBy degrees).quantity? "angle_degrees" = some (degrees : Rat) := rfl
  obtain ⟨-, -, -, alone, -⟩ := simulation_monotone cautious valid "attitude_adjust" (turnBy 3) []
  obtain ⟨-, -, -, among, -, onward⟩ :=
    simulation_monotone cautious valid "attitude_adjust" (turnBy 3) [("B", 0.9), ("C", 0.8)]
  have blocked : (cautious.judge "attitude_adjust" (turnBy 3) [("B", 0.9), ("C", 0.8)]).safe = false := by
    rw [← Bool.not_eq_true, among]
    rintro ⟨base, charged, low⟩
    rw [SafetyModelOf.affected_judge] at low
    cases charged with
    | attitude _ given =>
      obtain rfl := Option.some.inj ((read 3).symm.trans given)
      norm_num [cautious] at low
    | unknown other => exact other (by decide)
    | _ named => exact absurd named (by decide)
  refine ⟨valid, alone.mpr ⟨_, .attitude rfl (read 3), ?_⟩, blocked, onward _ _ ?_ (.inr ?_) blocked⟩
  · rw [SafetyModelOf.affected_judge]
    norm_num [cautious]
  · exact (List.sublist_cons_self ..).subperm
  · exact .attitude rfl (read 3) (read (-4)) (by norm_num)

end FleetCoordination
