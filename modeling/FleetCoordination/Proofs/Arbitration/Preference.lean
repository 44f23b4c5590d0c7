import Mathlib.Algebra.BigOperators.Group.List.Lemmas
import Mathlib.Data.List.Perm.Basic
import FleetCoordination.Proofs.Arbitration
/-!
# The preference of a group

The actions that some policies ask for are looked at by increasing name, and the best so far gives
way to one with clearly more backing, or to a vital one with about as much. Each such exchange for a
vital action may lose a little backing, but only once in a row: the action preferred in the end has
at most two tolerances less than any other.
-/
namespace FleetCoordination

/-- Texts with the same members are sorted alike. -/
theorem Text.sorted_congr {xs ys : List String} (same : ∀ x, x ∈ xs ↔ x ∈ ys) : Text.sorted xs = Text.sorted ys := by
  have perm : (sorted xs).Perm (sorted ys) :=
    (List.perm_ext_iff_of_nodup (nodup_sorted xs) (nodup_sorted ys)).mpr fun x => by simp [same]
  exact perm.eq_of_pairwise (fun a b _ _ first second => (String.lt_asymm first second).elim) (pairwise_sorted xs)
    (pairwise_sorted ys)

theorem Text.sorted_eq_nil {xs : List String} : Text.sorted xs = [] ↔ xs = [] := by
  simp only [List.eq_nil_iff_forall_not_mem, mem_sorted]

namespace Arbitration
variable {w : WeightsOf Rat} {policies others : List (PolicyOf Rat)} {a b best next : String} {seen : List String}

/-! ## Backing -/

/-- The weighted scores of all policies for an action together. -/
def backing (w : WeightsOf Rat) (policies : List (PolicyOf Rat)) (action : String) : Rat :=
  ((policies.filter (·.action = action)).map (weighted w)).sum

/-- Whether a safety policy asks for an action. -/
def Vital (policies : List (PolicyOf Rat)) (action : String) : Prop :=
  ∃ p ∈ policies, p.action = action ∧ p.priority = .safety

/-- Whether an action goes before another: by its backing, then if it alone is vital, then by name. -/
def Outdoes (w : WeightsOf Rat) (policies : List (PolicyOf Rat)) (a b : String) : Prop :=
  backing w policies b < backing w policies a ∨
    backing w policies b = backing w policies a ∧
      (Vital policies a ∧ ¬Vital policies b ∨ (Vital policies a ↔ Vital policies b) ∧ a < b)

/-- Whether the tolerance makes no difference between some actions. -/
def Separated (w : WeightsOf Rat) (policies : List (PolicyOf Rat)) (actions : List String) : Prop :=
  ∀ a ∈ actions, ∀ b ∈ actions,
    backing w policies a = backing w policies b ∨ tolerance < |backing w policies a - backing w policies b|

theorem backing_perm (same : others.Perm policies) (action : String) :
    backing w others action = backing w policies action :=
  ((same.filter _).map _).sum_eq

theorem vital_perm (same : others.Perm policies) : Vital others a ↔ Vital policies a := by
  simp only [Vital, same.mem_iff]

/-! ## The scan -/

/-- The group of an action. -/
def groupFor (w : WeightsOf Rat) (policies : List (PolicyOf Rat)) (action : String) : GroupOf Rat :=
  let members := policies.filter (·.action = action)
  { action, members, aggregate := Scalar.sum (members.map (weighted w)), safety := members.any isSafety }

/-- Whether the best action so far gives way to the next. -/
def yields (w : WeightsOf Rat) (policies : List (PolicyOf Rat)) (best next : String) : Bool :=
  replaces (groupFor w policies best) (groupFor w policies next)

def scan (w : WeightsOf Rat) (policies : List (PolicyOf Rat)) (first : String) (rest : List String) : String :=
  rest.foldl (fun best next => if yields w policies best next then next else best) first

/-- The action that some policies prefer. -/
def favourite (w : WeightsOf Rat) (policies : List (PolicyOf Rat)) : Option String :=
  match Text.sorted (policies.map (·.action)) with
  | [] => none
  | first :: rest => some (scan w policies first rest)

theorem strongest_groups : strongest (groups w policies) = (favourite w policies).map (groupFor w policies) := by
  have eq : groups w policies = (Text.sorted (policies.map (·.action))).map (groupFor w policies) := rfl
  rw [eq, favourite]
  cases Text.sorted (policies.map (·.action)) with
  | nil => rfl
  | cons first rest =>
    refine congrArg some ?_
    rw [List.foldl_map, scan]
    exact List.foldl_hom (groupFor w policies) fun best next => by rw [yields, apply_ite (groupFor w policies)]

theorem aggregate_groupFor : (groupFor w policies a).aggregate = backing w policies a := Scalar.sum_eq_sum _

theorem safety_groupFor : (groupFor w policies a).safety = true ↔ Vital policies a := by
  simp [groupFor, Vital]

/-- An action yields to one with clearly more backing, and to a vital one with about as much if it
is not vital itself. -/
theorem yields_iff : yields w policies best next = true ↔
    backing w policies best + tolerance < backing w policies next ∨
      |backing w policies next - backing w policies best| ≤ tolerance ∧ Vital policies next ∧ ¬Vital policies best := by
  rw [yields, replaces, aggregate_groupFor, aggregate_groupFor, ← safety_groupFor (w := w), ← safety_groupFor (w := w)]
  by_cases close : |backing w policies next - backing w policies best| ≤ tolerance
  · have near := (abs_le.mp close).2
    rw [if_neg (by rw [not_differ_iff.mpr close]; decide)]
    simp only [Bool.and_eq_true, Bool.not_eq_true', ← Bool.not_eq_true, close, true_and]
    refine (or_iff_right ?_).symm
    linarith
  · have apart := lt_abs.mp (not_le.mp close)
    have positive := tolerance_pos
    rw [if_pos (differ_iff.mpr (not_le.mp close)), decide_eq_true_iff]
    simp only [close, false_and, or_false]
    constructor
    · intro more
      rcases apart with above | below <;> linarith
    · intro more
      linarith

theorem yields_perm (same : others.Perm policies) : yields w others = yields w policies := by
  funext best next
  rw [Bool.eq_iff_iff, yields_iff, yields_iff, backing_perm same, backing_perm same, vital_perm same, vital_perm same]

theorem favourite_perm (same : others.Perm policies) : favourite w others = favourite w policies := by
  have actions : Text.sorted (others.map (·.action)) = Text.sorted (policies.map (·.action)) :=
    Text.sorted_congr fun x => (same.map _).mem_iff
  rw [favourite, favourite, actions]
  simp only [scan, yields_perm same]

/-! ## What the scan has found -/

/-- How the best action so far stands among those seen. -/
structure Leads (w : WeightsOf Rat) (policies : List (PolicyOf Rat)) (seen : List String) (best : String) : Prop where
  mem : best ∈ seen
  near : ∀ a ∈ seen, backing w policies a ≤ backing w policies best + 2 * tolerance
  /-- Only a vital action has more than one tolerance to make good. -/
  close : ¬Vital policies best → ∀ a ∈ seen, backing w policies a ≤ backing w policies best + tolerance
  first : seen.Pairwise (· < ·) → Separated w policies seen → ∀ a ∈ seen, a = best ∨ Outdoes w policies best a

theorem leads_singleton : Leads w policies [a] a := by
  have positive := tolerance_pos
  refine ⟨.head _, ?_, fun _ => ?_, ?_⟩
  · simp [positive.le]
  · simp [positive.le]
  · simp

namespace Leads

theorem yield (h : Leads w policies seen best) (yields : yields w policies best next = true) :
    Leads w policies (seen ++ [next]) next := by
  have positive := tolerance_pos
  have near : (∀ a ∈ seen, backing w policies a ≤ backing w policies next + 2 * tolerance) ∧
      (¬Vital policies next → ∀ a ∈ seen, backing w policies a ≤ backing w policies next + tolerance) := by
    rcases yields_iff.mp yields with more | ⟨about, vital, ordinary⟩
    · exact ⟨fun a ha => by linarith [h.near a ha], fun _ a ha => by linarith [h.near a ha]⟩
    · exact ⟨fun a ha => by linarith [h.close ordinary a ha, (abs_le.mp about).1], fun other => absurd vital other⟩
  refine ⟨by simp, ?_, fun ordinary => ?_, fun increasing separated => ?_⟩
  · simpa [or_imp, forall_and, positive.le] using near.1
  · simpa [or_imp, forall_and, positive.le] using near.2 ordinary
  · refine List.forall_mem_append.mpr ⟨fun a ha => .inr ?_, by simp⟩
    have earlier := h.first (List.pairwise_append.mp increasing).1
      (fun a ha b hb => separated a (List.mem_append_left _ ha) b (List.mem_append_left _ hb)) a ha
    have level := separated next (by simp) best (List.mem_append_left _ h.mem)
    -- if `next` has no more backing than `best` it is vital, and `a` then is not
    rcases yields_iff.mp yields with more | ⟨about, vital, ordinary⟩
    · rcases earlier with rfl | below | ⟨same, -⟩
      · exact .inl (by linarith)
      · exact .inl (by linarith)
      · exact .inl (by linarith)
    · have same := level.resolve_right (not_lt.mpr about)
      rcases earlier with rfl | below | ⟨same', ⟨vital', -⟩ | ⟨kind, -⟩⟩
      · exact .inr ⟨same.symm, .inl ⟨vital, ordinary⟩⟩
      · exact .inl (by linarith)
      · exact absurd vital' ordinary
      · exact .inr ⟨same'.trans same.symm, .inl ⟨vital, fun other => ordinary (kind.mpr other)⟩⟩

theorem stay (h : Leads w policies seen best) (stays : ¬yields w policies best next = true) :
    Leads w policies (seen ++ [next]) best := by
  have positive := tolerance_pos
  rw [yields_iff, not_or, not_lt, not_and, not_and, not_not] at stays
  obtain ⟨most, kind⟩ := stays
  refine ⟨List.mem_append_left _ h.mem, ?_, fun ordinary => ?_, fun increasing separated => ?_⟩
  · exact List.forall_mem_append.mpr ⟨h.near, List.forall_mem_singleton.mpr (by linarith)⟩
  · exact List.forall_mem_append.mpr ⟨h.close ordinary, List.forall_mem_singleton.mpr most⟩
  · have before : best < next := (List.pairwise_append.mp increasing).2.2 best h.mem next (by simp)
    refine List.forall_mem_append.mpr ⟨?_, List.forall_mem_singleton.mpr (.inr ?_)⟩
    · exact h.first (List.pairwise_append.mp increasing).1
        fun a ha b hb => separated a (List.mem_append_left _ ha) b (List.mem_append_left _ hb)
    · rcases separated next (by simp) best (List.mem_append_left _ h.mem) with same | apart
      · have about : |backing w policies next - backing w policies best| ≤ tolerance := by
          rw [same, sub_self, abs_zero]
          exact positive.le
        refine .inr ⟨same, ?_⟩
        by_cases vital : Vital policies best
        · by_cases other : Vital policies next
          · exact .inr ⟨iff_of_true vital other, before⟩
          · exact .inl ⟨vital, other⟩
        · exact .inr ⟨iff_of_false vital fun other => vital (kind about other), before⟩
      · rcases lt_abs.mp apart with above | below
        · exact absurd most (by linarith)
        · exact .inl (by linarith)

theorem scan (h : Leads w policies seen best) (rest : List String) :
    Leads w policies (seen ++ rest) (scan w policies best rest) := by
  induction rest generalizing seen best with
  | nil => simpa [Arbitration.scan] using h
  | cons next rest ih =>
    have step : Leads w policies (seen ++ [next]) (if yields w policies best next then next else best) := by
      split
      · next yields => exact h.yield yields
      · next stays => exact h.stay stays
    simpa [Arbitration.scan] using ih step

end Leads

theorem leads_favourite (h : favourite w policies = some a) :
    Leads w policies (Text.sorted (policies.map (·.action))) a := by
  rw [favourite] at h
  cases sorted : Text.sorted (policies.map (·.action)) with
  | nil => simp [sorted] at h
  | cons first rest =>
    obtain rfl : scan w policies first rest = a := by simpa [sorted] using h
    exact leads_singleton.scan rest

theorem favourite_eq_none : favourite w policies = none ↔ policies = [] := by
  have actions : Text.sorted (policies.map (·.action)) = [] ↔ policies = [] :=
    Text.sorted_eq_nil.trans List.map_eq_nil_iff
  rw [← actions, favourite]
  cases Text.sorted (policies.map (·.action)) <;> simp

/-! ## The representative -/

theorem representative_eq_none {members : List (PolicyOf Rat)} : representative w members = none ↔ members = [] := by
  cases members <;> simp [representative]

/-- The representative is one of the members with the greatest score. -/
theorem representative_greatest {members : List (PolicyOf Rat)} {p : PolicyOf Rat}
    (h : representative w members = some p) : p ∈ members ∧ ∀ q ∈ members, weighted w q ≤ weighted w p := by
  cases members with
  | nil => cases h
  | cons q rest =>
    rw [representative, Option.some.injEq] at h
    subst h
    induction rest generalizing q with
    | nil => simp
    | cons r rest ih =>
      rw [List.foldl_cons]
      split
      · next more =>
        obtain ⟨mem, greatest⟩ := ih r
        rw [Scalar.isLE_order_iff] at more
        exact ⟨.tail _ mem, List.forall_mem_cons.mpr ⟨more.trans (greatest r (.head _)), greatest⟩⟩
      · next less =>
        obtain ⟨mem, greatest⟩ := ih q
        rw [Scalar.isLE_order_iff, not_le] at less
        obtain ⟨first, later⟩ := List.forall_mem_cons.mp greatest
        refine ⟨?_, List.forall_mem_cons.mpr ⟨first, List.forall_mem_cons.mpr ⟨less.le.trans first, later⟩⟩⟩
        rcases List.mem_cons.mp mem with same | mem
        · rw [same]
          exact .head _
        · exact .tail _ (.tail _ mem)

/-! ## The preference -/

/-- What the preference of some policies is the same for in any order. -/
def PreferenceOf.choice (r : PreferenceOf Rat) : String × Rat × List AgentId := (r.action, r.aggregate, r.supporters)

/-- The supporters of an action. -/
def supporters (policies : List (PolicyOf Rat)) (action : String) : List AgentId :=
  Text.sorted ((policies.filter (·.action = action)).map (·.agent))

theorem prefer_eq (h : favourite w policies = some a) : ∃ p, prefer w policies =
      some { action := a, aggregate := backing w policies a, supporters := supporters policies a, representative := p } ∧
    representative w (policies.filter (·.action = a)) = some p := by
  obtain ⟨p, hp, asks⟩ := List.mem_map.mp (Text.mem_sorted.mp (leads_favourite h).mem)
  have filled : policies.filter (·.action = a) ≠ [] :=
    List.ne_nil_of_mem (List.mem_filter.mpr ⟨hp, by simpa using asks⟩)
  obtain ⟨q, found⟩ := Option.ne_none_iff_exists'.mp (mt representative_eq_none.mp filled)
  have members : representative w (groupFor w policies a).members = some q := found
  refine ⟨q, ?_, found⟩
  rw [prefer, strongest_groups, h, ← aggregate_groupFor]
  simp only [Option.map_some, Option.bind_eq_bind, Option.bind_some, members]
  rfl

theorem prefer_eq_none : prefer w policies = none ↔ policies = [] := by
  rw [← favourite_eq_none (w := w)]
  cases h : favourite w policies with
  | none => simp [prefer, strongest_groups, h]
  | some a =>
    obtain ⟨p, preferred, -⟩ := prefer_eq h
    simp [preferred]

theorem supporters_perm (same : others.Perm policies) : supporters others a = supporters policies a :=
  Text.sorted_congr fun _ => ((same.filter _).map _).mem_iff

theorem choice_perm (same : others.Perm policies) :
    (prefer w others).map PreferenceOf.choice = (prefer w policies).map PreferenceOf.choice := by
  have equal := favourite_perm (w := w) same
  cases h : favourite w policies with
  | none =>
    rw [prefer_eq_none.mpr (favourite_eq_none.mp h), prefer_eq_none.mpr (favourite_eq_none.mp (equal.trans h))]
  | some a =>
    obtain ⟨p, preferred, -⟩ := prefer_eq h
    obtain ⟨q, preferred', -⟩ := prefer_eq (equal.trans h)
    simp [preferred, preferred', PreferenceOf.choice, backing_perm same, supporters_perm same]

/-- What makes a preference that of some policies. -/
structure Justified (w : WeightsOf Rat) (policies : List (PolicyOf Rat)) (r : PreferenceOf Rat) : Prop where
  asked : ∃ p ∈ policies, p.action = r.action
  aggregate : r.aggregate = backing w policies r.action
  near : ∀ p ∈ policies, backing w policies p.action ≤ r.aggregate + 2 * tolerance
  first : Separated w policies (policies.map (·.action)) →
    ∀ p ∈ policies, p.action = r.action ∨ Outdoes w policies r.action p.action
  increasing : r.supporters.Pairwise (· < ·)
  supporters : ∀ agent, agent ∈ r.supporters ↔ ∃ p ∈ policies, p.action = r.action ∧ p.agent = agent
  member : r.representative ∈ policies ∧ r.representative.action = r.action
  greatest : ∀ p ∈ policies, p.action = r.action → weighted w p ≤ weighted w r.representative

/-- Some policies prefer an action unless there are none of them. In any order they prefer the same
one, with the same backing and supporters: one that no other has more than two tolerances more
backing than, and the very first if the tolerance makes no difference between them. -/
theorem preference_sound (w : WeightsOf Rat) (policies : List (PolicyOf Rat)) :
    (prefer w policies = none ↔ policies = []) ∧
      (∀ others, others.Perm policies →
        (prefer w others).map PreferenceOf.choice = (prefer w policies).map PreferenceOf.choice) ∧
      ∀ r, prefer w policies = some r → Justified w policies r := by
  refine ⟨prefer_eq_none, fun others same => choice_perm same, fun r preferred => ?_⟩
  have filled : favourite w policies ≠ none := by
    rw [Ne, favourite_eq_none, ← prefer_eq_none (w := w), preferred]
    exact Option.some_ne_none r
  obtain ⟨a, found⟩ := Option.ne_none_iff_exists'.mp filled
  obtain ⟨p, eq, represents⟩ := prefer_eq found
  obtain rfl := Option.some.inj (preferred.symm.trans eq)
  obtain ⟨mem, near, -, first⟩ := leads_favourite found
  have listed : ∀ q ∈ policies, q.action ∈ Text.sorted (policies.map (·.action)) :=
    fun q hq => Text.mem_sorted.mpr (List.mem_map_of_mem hq)
  obtain ⟨member, greatest⟩ := representative_greatest represents
  simp only [List.mem_filter, decide_eq_true_eq] at member greatest
  constructor
  case asked => simpa using mem
  case aggregate => rfl
  case near => exact fun q hq => near _ (listed q hq)
  case first =>
    refine fun separated q hq => first (Text.pairwise_sorted _) (fun x hx y hy => ?_) _ (listed q hq)
    exact separated x (Text.mem_sorted.mp hx) y (Text.mem_sorted.mp hy)
  case increasing => exact Text.pairwise_sorted _
  case supporters => simp [supporters, and_assoc]
  case member => exact member
  case greatest => exact fun q hq asks => greatest q ⟨hq, asks⟩

/-- One policy asks for `b` with a tolerance more than another asks for `a`, a safety policy for `c`
with a tolerance less. -/
def crowd : List (PolicyOf Rat) :=
  [⟨"a", .null, .performance, .here, 1 / 2, "A", .epoch⟩,
    ⟨"b", .null, .performance, .here, 1 / 2 + 5 * tolerance, "B", .epoch⟩,
    ⟨"c", .null, .safety, .here, (1 / 10 - tolerance) / (7 / 10), "C", .epoch⟩]

-- `a` stays when `b` comes and then yields to `c`: two tolerances less are really possible
example : (prefer .standard crowd).map (·.action) = some "c" := by cbv

example : backing .standard crowd "b" = backing .standard crowd "c" + 2 * tolerance := by decide +kernel

end Arbitration

end FleetCoordination
