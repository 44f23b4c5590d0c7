import Mathlib.Data.List.Nodup
import FleetCoordination.Proofs.Table
import FleetCoordination.Reassignment.Planning
/-!
# What the rules plan

Every rule goes over some agents and adds a plan at a time, under its guard. A plan names
agents that no earlier plan has named and that their windows do not hold back; so an agent
that is still unnamed has the role it came with.
-/
namespace FleetCoordination.Reassignment

/-- Whether an agent may be named. -/
def Free (o : Outlook) (d : Draft) (agent : AgentId) : Prop := agent ∉ d.claimed ∧ o.debounced agent = false

/-- A plan that a rule may add to a draft, with the rule's guard. -/
inductive Offer (o : Outlook) (d : Draft) : Plan → Prop
  | failover {primary successor : AgentId} {role : Role} (held : (primary, .primary) ∈ d.roles.entries)
      (free : Free o d primary) (degraded : o.degraded primary = true)
      (found : replacement o d = some (successor, role)) : Offer o d (failoverPlan o primary successor role)
  | demotion {t : ComplianceTracker} {agent : AgentId} {role : Role} {rate : Float} {observed : Nat}
      (held : (agent, role) ∈ d.roles.entries) (free : Free o d agent) (tracked : o.tracker = some t)
      (rank : role = .primary ∨ role = .backup) (other : agent ≠ o.self)
      (known : t.compliance? agent = some (rate, observed)) (enough : o.settings.minPropagations ≤ observed)
      (low : ¬o.settings.complianceThreshold ≤ rate) : Offer o d (demotionPlan agent role rate observed)
  | safeMode {agent : AgentId} {role : Role} (held : (agent, role) ∈ d.roles.entries) (free : Free o d agent)
      (rank : role = .backup ∨ role = .standby) (failing : o.settings.effectiveSafeMode ≤ o.streak agent) :
      Offer o d (safeModePlan o agent role)
  | recovery {agent : AgentId} {role target : Role} (held : (agent, role) ∈ d.roles.entries) (free : Free o d agent)
      (recovered : o.recovered agent = true) (up : role.promotion = some target)
      (room : vacant o.settings d target = true) : Offer o d (recoveryPlan o agent role target none)
  | exchange {agent holder : AgentId} {role target : Role} (held : (agent, role) ∈ d.roles.entries)
      (free : Free o d agent) (recovered : o.recovered agent = true) (up : role.promotion = some target)
      (full : vacant o.settings d target = false) (found : displaceable o d target = some holder) :
      Offer o d (recoveryPlan o agent role target (some holder))

/-- How a draft comes to be from another: plans are added, and agents that are held back are
counted. -/
inductive Drafting (o : Outlook) (d : Draft) : Draft → Prop
  | none : Drafting o d d
  | hold {d' : Draft} (drafting : Drafting o d d') (n : Nat) : Drafting o d { d' with debounced := n }
  | add {d' : Draft} {p : Plan} (drafting : Drafting o d d') (offer : Offer o d' p) : Drafting o d (d'.add p)

/-! ## Roles -/

section Reassign
variable {t : RoleTable} {changes : List RoleChange} {a : AgentId} {r : Role}

theorem mem_reassign_ne (h : a ∉ changes.map (·.agent)) : (a, r) ∈ (reassign t changes).entries ↔ (a, r) ∈ t.entries := by
  induction changes generalizing t with
  | nil => rfl
  | cons c rest ih =>
    obtain ⟨other, later⟩ : a ≠ c.agent ∧ a ∉ rest.map (·.agent) := by simpa using h
    exact (ih later).trans (Table.mem_insert_ne other)

theorem get?_reassign_ne (h : a ∉ changes.map (·.agent)) : (reassign t changes).get? a = t.get? a := by
  induction changes generalizing t with
  | nil => rfl
  | cons c rest ih =>
    obtain ⟨other, later⟩ : a ≠ c.agent ∧ a ∉ rest.map (·.agent) := by simpa using h
    exact (ih later).trans (Table.get?_insert_ne _ other _)

/-- Changes of different agents are all made. -/
theorem get?_reassign (once : (changes.map (·.agent)).Nodup) {c : RoleChange} (hc : c ∈ changes) :
    (reassign t changes).get? c.agent = some c.new := by
  induction changes generalizing t with
  | nil => cases hc
  | cons c' rest ih =>
    obtain ⟨new, once⟩ := List.nodup_cons.mp once
    rcases List.mem_cons.mp hc with rfl | later
    · exact (get?_reassign_ne new).trans (Table.get?_insert_self ..)
    · exact ih once later

theorem ordered_reassign (h : t.Ordered) (changes : List RoleChange) : (reassign t changes).Ordered := by
  induction changes generalizing t with
  | nil => exact h
  | cons c rest ih => exact ih (h.insert c.agent c.new)

theorem reassign_append (t : RoleTable) (xs ys : List RoleChange) :
    reassign t (xs ++ ys) = reassign (reassign t xs) ys := List.foldl_append

end Reassign

/-! ## What a plan is made of -/

section Offer
variable {o : Outlook} {d : Draft} {p : Plan} {a : AgentId} {role : Role}

theorem mem_holders : a ∈ d.holders role ↔ (a, role) ∈ d.roles.entries := by
  simp [Draft.holders, Table.mem_keys, Table.mem_filter]

theorem fittest_mem {xs : List (AgentId × Float)} {x : AgentId × Float} (h : fittest xs = some x) : x ∈ xs := by
  induction xs with
  | nil => cases h
  | cons y ys ih => grind [fittest]

theorem of_replacement (h : replacement o d = some (a, role)) : (role = .backup ∨ role = .standby) ∧
    (a, role) ∈ d.roles.entries ∧ Free o d a ∧ o.healthy a = true := by
  obtain ⟨role', rank, found⟩ := List.exists_of_findSome?_eq_some h
  obtain ⟨⟨a', risk⟩, least, same⟩ := Option.map_eq_some_iff.mp found
  obtain ⟨rfl, rfl⟩ := Prod.mk.inj same
  obtain ⟨b, hb, candidate⟩ := List.mem_filterMap.mp (fittest_mem least)
  split at candidate
  · next fit =>
    obtain ⟨_, -, pair⟩ := Option.map_eq_some_iff.mp candidate
    obtain ⟨rfl, rfl⟩ := Prod.mk.inj pair
    simp only [Bool.and_eq_true, decide_eq_true_eq, Bool.not_eq_true'] at fit
    exact ⟨by simpa using rank, mem_holders.mp hb, ⟨fit.1.2, fit.2⟩, fit.1.1⟩
  · cases candidate

theorem of_displaceable (h : displaceable o d role = some a) :
    (a, role) ∈ d.roles.entries ∧ Free o d a ∧ o.degraded a = true := by
  have fit := List.find?_some h
  simp only [Bool.and_eq_true, decide_eq_true_eq, Bool.not_eq_true'] at fit
  exact ⟨mem_holders.mp (List.mem_of_find?_eq_some h), ⟨fit.1.2, fit.2⟩, fit.1.1⟩

theorem ne_of_promotion {target : Role} (h : role.promotion = some target) : role ≠ target := by
  rintro rfl
  cases role <;> cases h

/-- A plan moves each of its agents on from a role that it holds, and may name it. -/
theorem Offer.change (h : Offer o d p) {c : RoleChange} (hc : c ∈ p.changes) : Free o d c.agent ∧
    ∃ r, c.old = some r ∧ (c.agent, r) ∈ d.roles.entries ∧ r ≠ c.new := by
  cases h with
  | failover held free degraded found =>
    obtain ⟨rank, held', free', -⟩ := of_replacement found
    obtain rfl | rfl : c = _ ∨ c = _ := by simpa [failoverPlan] using hc
    · exact ⟨free, _, rfl, held, by rcases rank with rfl | rfl <;> simp⟩
    · exact ⟨free', _, rfl, held', by rcases rank with rfl | rfl <;> simp⟩
  | demotion held free tracked rank =>
    obtain rfl : c = _ := by simpa [demotionPlan] using hc
    exact ⟨free, _, rfl, held, by rcases rank with rfl | rfl <;> simp⟩
  | safeMode held free rank =>
    obtain rfl : c = _ := by simpa [safeModePlan] using hc
    exact ⟨free, _, rfl, held, by rcases rank with rfl | rfl <;> simp⟩
  | recovery held free recovered up =>
    obtain rfl : c = _ := by simpa [recoveryPlan] using hc
    exact ⟨free, _, rfl, held, ne_of_promotion up⟩
  | exchange held free recovered up full found =>
    obtain ⟨held', free', -⟩ := of_displaceable found
    obtain rfl | rfl : c = _ ∨ c = _ := by simpa [recoveryPlan] using hc
    · exact ⟨free, _, rfl, held, ne_of_promotion up⟩
    · exact ⟨free', _, rfl, held', (ne_of_promotion up).symm⟩

theorem Offer.free (h : Offer o d p) (ha : a ∈ p.agents) : Free o d a := by
  obtain ⟨c, hc, rfl⟩ := List.mem_map.mp ha
  exact (h.change hc).1

/-- A plan names different agents: they hold different roles. -/
theorem Offer.nodup (h : Offer o d p) (ordered : d.roles.Ordered) : p.agents.Nodup := by
  have apart {a b : AgentId} {r r' : Role} (held : (a, r) ∈ d.roles.entries) (held' : (b, r') ∈ d.roles.entries)
      (differ : r ≠ r') : a ≠ b := by
    rintro rfl
    exact differ (ordered.unique held held')
  cases h with
  | failover held free degraded found =>
    obtain ⟨rank, held', -⟩ := of_replacement found
    simpa [Plan.agents, failoverPlan] using apart held held' (by rcases rank with rfl | rfl <;> simp)
  | demotion | safeMode | recovery => exact List.nodup_singleton _
  | exchange held free recovered up full found =>
    simpa [Plan.agents, recoveryPlan] using apart held (of_displaceable found).1 (ne_of_promotion up)

end Offer

/-! ## The rules draft -/

namespace Drafting
variable {o : Outlook} {d d' d'' : Draft} {a : AgentId} {r : Role}

theorem trans (h : Drafting o d d') (h' : Drafting o d' d'') : Drafting o d d'' := by
  induction h' with
  | none => exact h
  | hold _ n ih => exact ih.hold n
  | add _ offer ih => exact ih.add offer

theorem single {p : Plan} (offer : Offer o d p) : Drafting o d (d.add p) := none.add offer

/-- An agent that is not named keeps its entry. -/
theorem entry (h : Drafting o d d') (unnamed : a ∉ d'.claimed) :
    (a, r) ∈ d'.roles.entries ↔ (a, r) ∈ d.roles.entries := by
  induction h with
  | none => rfl
  | hold _ n ih => exact ih unnamed
  | @add d' p _ offer ih =>
    obtain ⟨before, other⟩ : a ∉ d'.claimed ∧ a ∉ p.agents := by simpa [Draft.add] using unnamed
    exact (mem_reassign_ne other).trans (ih before)

theorem ordered (h : Drafting o d d') (start : d.roles.Ordered) : d'.roles.Ordered := by
  induction h with
  | none => exact start
  | hold _ n ih => exact ih
  | add _ offer ih => exact ordered_reassign ih _

theorem foldl {β : Type} {f : Draft → β → Draft} {xs : List β}
    (step : ∀ d', Drafting o d d' → ∀ x ∈ xs, Drafting o d' (f d' x)) : Drafting o d (xs.foldl f d) := by
  have run ys (sub : ys ⊆ xs) (d' : Draft) (h : Drafting o d d') : Drafting o d (ys.foldl f d') := by
    induction ys generalizing d' with
    | nil => exact h
    | cons y ys ih =>
      obtain ⟨now, later⟩ := List.cons_subset.mp sub
      exact ih later _ (h.trans (step d' h y now))
  exact run xs (List.Subset.refl xs) d none

end Drafting

section Rules
variable {o : Outlook} {d : Draft} {a : AgentId}

theorem gate_cases (o : Outlook) (d : Draft) (a : AgentId) :
    Free o d a ∧ d.gate o a = (d, true) ∨ ∃ n, d.gate o a = ({ d with debounced := n }, false) := by
  unfold Draft.gate
  split
  · exact .inr ⟨d.debounced, rfl⟩
  · next unnamed =>
    split
    · exact .inr ⟨_, rfl⟩
    · next open_ => exact .inl ⟨⟨unnamed, by simpa using open_⟩, rfl⟩

theorem drafting_addIfFree {p : Plan} (offer : Free o d a → Offer o d p) : Drafting o d (d.addIfFree o a p) := by
  unfold Draft.addIfFree
  obtain ⟨free, gate⟩ | ⟨n, gate⟩ := gate_cases o d a
  · rw [gate]
    exact .single (offer free)
  · rw [gate]
    exact Drafting.none.hold n

theorem drafting_failover (held : a ∉ d.claimed → (a, .primary) ∈ d.roles.entries) :
    Drafting o d (failover o d a) := by
  unfold failover
  split
  · next degraded =>
    obtain ⟨free, gate⟩ | ⟨n, gate⟩ := gate_cases o d a
    · rw [gate]
      cases found : replacement o d with
      | some c =>
        have offer : Offer o d (failoverPlan o a c.1 c.2) := .failover (held free.1) free degraded found
        simpa only [found] using Drafting.single offer
      | none => simpa only [found] using Drafting.none
    · rw [gate]
      exact Drafting.none.hold n
  · exact .none

theorem drafting_failovers (o : Outlook) (d : Draft) : Drafting o d (failovers o d) :=
  Drafting.foldl fun _ drafting _ holder =>
    drafting_failover fun unnamed => (drafting.entry unnamed).mpr (mem_holders.mp holder)

theorem drafting_demote {t : ComplianceTracker} (tracked : o.tracker = some t) {role : Role}
    (rank : role = .primary ∨ role = .backup) (other : a ≠ o.self)
    (held : a ∉ d.claimed → (a, role) ∈ d.roles.entries) : Drafting o d (demote o t d (a, role)) := by
  unfold demote
  dsimp only
  split
  · next rate observed known =>
    split
    · exact .none
    · next poor =>
      obtain ⟨enough, low⟩ := not_or.mp poor
      exact drafting_addIfFree fun free =>
        .demotion (held free.1) free tracked rank other known (Nat.not_lt.mp enough) low
  · exact .none

theorem drafting_demotions (o : Outlook) (d : Draft) : Drafting o d (demotions o d) := by
  unfold demotions
  cases tracked : o.tracker with
  | none => exact .none
  | some t =>
    refine Drafting.foldl fun _ drafting entry he => ?_
    obtain ⟨held, fit⟩ := Table.mem_filter.mp he
    simp only [Bool.and_eq_true, Bool.or_eq_true, decide_eq_true_eq] at fit
    exact drafting_demote tracked fit.1 fit.2 fun unnamed => (drafting.entry unnamed).mpr held

theorem drafting_retirements (o : Outlook) (d : Draft) : Drafting o d (retirements o d) := by
  refine Drafting.foldl fun _ drafting entry he => ?_
  obtain ⟨held, fit⟩ := Table.mem_filter.mp he
  simp only [Bool.and_eq_true, Bool.or_eq_true, decide_eq_true_eq] at fit
  exact drafting_addIfFree fun free => .safeMode ((drafting.entry free.1).mpr held) free fit.1 fit.2

theorem drafting_promote {role : Role} (recovered : o.recovered a = true)
    (held : a ∉ d.claimed → (a, role) ∈ d.roles.entries) : Drafting o d (promote o d (a, role)) := by
  unfold promote
  dsimp only
  split
  · exact .none
  · next target up =>
    split
    · exact .none
    split
    · next room => exact drafting_addIfFree fun free => .recovery (held free.1) free recovered up room
    · next full =>
      split
      · next holder found =>
        exact drafting_addIfFree fun free =>
          .exchange (held free.1) free recovered up (by simpa using full) found
      · exact .none

theorem drafting_promotions (o : Outlook) (d : Draft) : Drafting o d (promotions o d) := by
  refine Drafting.foldl fun _ drafting entry he => ?_
  obtain ⟨held, recovered⟩ := Table.mem_filter.mp he
  exact drafting_promote recovered fun unnamed => (drafting.entry unnamed).mpr held

theorem drafting_plan (o : Outlook) (roles : RoleTable) : Drafting o { roles } (plan o roles) :=
  (((drafting_failovers ..).trans (drafting_demotions ..)).trans (drafting_retirements ..)).trans
    (drafting_promotions ..)

end Rules

/-! ## All that is planned -/

namespace Drafting
variable {o : Outlook} {roles : RoleTable} {d : Draft} {p : Plan} {c : RoleChange}

theorem claimed_eq (h : Drafting o { roles } d) : d.claimed = d.plans.flatMap Plan.agents := by
  induction h with
  | none => rfl
  | hold _ n ih => exact ih
  | add _ offer ih => simp [Draft.add, ih]

theorem roles_eq (h : Drafting o { roles } d) : d.roles = reassign roles (d.plans.flatMap (·.changes)) := by
  induction h with
  | none => rfl
  | hold _ n ih => exact ih
  | add _ offer ih => simp [Draft.add, ih, reassign_append]

theorem mem_claimed (h : Drafting o { roles } d) {a : AgentId} :
    a ∈ d.claimed ↔ ∃ p ∈ d.plans, ∃ c ∈ p.changes, c.agent = a := by
  simp [h.claimed_eq, Plan.agents]

theorem forall_plans (h : Drafting o { roles } d) {good : Plan → Prop} (offer : ∀ d p, Offer o d p → good p) :
    ∀ p ∈ d.plans, good p := by
  induction h with
  | none => simp
  | hold _ n ih => exact ih
  | add _ offered ih =>
    intro p hp
    rcases List.mem_append.mp hp with old | new
    · exact ih p old
    · rw [List.mem_singleton.mp new]
      exact offer _ _ offered

theorem not_debounced (h : Drafting o { roles } d) {a : AgentId} (named : a ∈ d.claimed) : o.debounced a = false := by
  induction h with
  | none => cases named
  | hold _ n ih => exact ih named
  | add _ offer ih =>
    rcases List.mem_append.mp named with old | new
    · exact ih old
    · exact (offer.free new).2

/-- A change is made from the role that its agent came with. -/
theorem change (h : Drafting o { roles } d) (hp : p ∈ d.plans) (hc : c ∈ p.changes) :
    ∃ r, c.old = some r ∧ (c.agent, r) ∈ roles.entries ∧ r ≠ c.new := by
  induction h with
  | none => cases hp
  | hold _ n ih => exact ih hp
  | add drafting offer ih =>
    rcases List.mem_append.mp hp with old | new
    · exact ih old
    · rw [List.mem_singleton.mp new] at hc
      obtain ⟨free, r, from_, held, moves⟩ := offer.change hc
      exact ⟨r, from_, (drafting.entry free.1).mp held, moves⟩

theorem nodup (h : Drafting o { roles } d) (start : roles.Ordered) : d.claimed.Nodup := by
  induction h with
  | none => exact List.nodup_nil
  | hold _ n ih => exact ih
  | add drafting offer ih =>
    refine List.nodup_append.mpr ⟨ih, offer.nodup (drafting.ordered start), fun a ha b hb same => ?_⟩
    exact (offer.free hb).1 (same ▸ ha)

/-- A planned role is held in the draft. -/
theorem planned (h : Drafting o { roles } d) (start : roles.Ordered) (hp : p ∈ d.plans) (hc : c ∈ p.changes) :
    (c.agent, c.new) ∈ d.roles.entries := by
  have once : ((d.plans.flatMap (·.changes)).map (·.agent)).Nodup := by
    have nodup := h.nodup start
    rw [h.claimed_eq] at nodup
    rwa [List.map_flatMap]
  apply Table.mem_of_get?
  rw [h.roles_eq]
  exact get?_reassign once (List.mem_flatMap.mpr ⟨p, hp, hc⟩)

/-- The first plans of a draft are a draft of their own. -/
theorem take (h : Drafting o { roles } d) (k : Nat) : ∃ d', Drafting o { roles } d' ∧ d'.plans = d.plans.take k := by
  induction h with
  | none => exact ⟨_, .none, by simp⟩
  | hold _ n ih => exact ih
  | @add d p drafting offer ih =>
    by_cases whole : d.plans.length < k
    · refine ⟨d.add p, drafting.add offer, ?_⟩
      have all : (d.add p).plans.length ≤ k := by simpa [Draft.add] using Nat.succ_le_of_lt whole
      rw [List.take_of_length_le all]
    · obtain ⟨d', drafting', plans⟩ := ih
      refine ⟨d', drafting', plans.trans ?_⟩
      exact (List.take_append_of_le_length (Nat.not_lt.mp whole)).symm

end Drafting

end FleetCoordination.Reassignment
