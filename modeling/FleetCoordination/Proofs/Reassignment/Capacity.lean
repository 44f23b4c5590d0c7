import Mathlib.Data.List.Flatten
import FleetCoordination.Proofs.Reassignment.Planning
/-!
# What the plans come to

No agent is named twice, so the plans can be carried out in any order and any of them left
out. Exchanges leave it at the holders that a role has, and a recovery fills a vacancy only:
a role with a capacity is never given to more agents than that, or than have it already.
-/
namespace FleetCoordination.Reassignment

/-- How many agents hold a role. -/
def held (t : RoleTable) (role : Role) : Nat := (t.filter fun _ r => r = role).size

theorem length_holders (d : Draft) (role : Role) : (d.holders role).length = held d.roles role := by
  simp [Draft.holders, Table.keys, held, Table.size]

/-! ## Order -/

section Order
variable {t : RoleTable} {plans xs ys : List Plan} {a : AgentId}

/-- Plans that name no agent twice may be carried out in any order. -/
theorem get?_reassign_perm (once : (xs.flatMap Plan.agents).Nodup) (same : xs.Perm ys) (a : AgentId) :
    (reassign t (xs.flatMap (·.changes))).get? a = (reassign t (ys.flatMap (·.changes))).get? a := by
  have changes : (xs.flatMap (·.changes)).Perm (ys.flatMap (·.changes)) := same.flatMap_right _
  have once : ((xs.flatMap (·.changes)).map (·.agent)).Nodup := by rwa [List.map_flatMap]
  have once' := (changes.map (·.agent)).nodup_iff.mp once
  by_cases named : a ∈ (xs.flatMap (·.changes)).map (·.agent)
  · obtain ⟨c, hc, rfl⟩ := List.mem_map.mp named
    rw [get?_reassign once hc, get?_reassign once' (changes.mem_iff.mp hc)]
  · rw [get?_reassign_ne named, get?_reassign_ne fun named' => named ((changes.map _).mem_iff.mpr named')]

theorem nodup_agents_of_subperm (once : (plans.flatMap Plan.agents).Nodup) (some_ : xs.Subperm plans) :
    (xs.flatMap Plan.agents).Nodup := by
  obtain ⟨zs, perm, sub⟩ := some_
  exact (perm.flatMap_right _).nodup_iff.mp (once.sublist (sub.flatMap _))

end Order

/-! ## Balance -/

/-- A role has as many more holders after some changes as more are given it than lose it. -/
theorem held_reassign {t : RoleTable} {changes : List RoleChange} (ordered : t.Ordered)
    (once : (changes.map (·.agent)).Nodup)
    (from_ : ∀ c ∈ changes, ∃ r, c.old = some r ∧ (c.agent, r) ∈ t.entries) (role : Role) :
    held (reassign t changes) role + changes.countP (·.old = some role) =
      held t role + changes.countP (·.new = role) := by
  induction changes generalizing t with
  | nil => rfl
  | cons c rest ih =>
    obtain ⟨new, once⟩ := List.nodup_cons.mp once
    obtain ⟨⟨r, old, entry⟩, later⟩ := List.forall_mem_cons.mp from_
    have first := ordered.size_filter_insert entry c.new (· = role)
    have rest' := ih (ordered.insert c.agent c.new) once fun c' hc' => by
      obtain ⟨r', old', entry'⟩ := later c' hc'
      have other : c'.agent ≠ c.agent := fun same => new (List.mem_map.mpr ⟨c', hc', same⟩)
      exact ⟨r', old', (Table.mem_insert_ne other).mpr entry'⟩
    have step : reassign t (c :: rest) = reassign (t.insert c.agent c.new) rest := rfl
    simp only [step, List.countP_cons, old, Option.some.injEq, held] at rest' ⊢
    omega

/-! ## Capacities -/

section Offer
variable {o : Outlook} {d : Draft} {p : Plan} {role : Role} {n : Nat}

/-- A plan gives a role of limited capacity to no more agents than it takes it from, or to one
more while there is room. -/
theorem Offer.flow (h : Offer o d p) (limited : capacity o.settings role = some n) :
    p.changes.countP (·.new = role) ≤ p.changes.countP (·.old = some role) ∨
      p.changes.countP (·.new = role) ≤ 1 ∧ held d.roles role < n := by
  cases h with
  | @failover primary successor role' =>
    refine .inl (Nat.le_of_eq ?_)
    simp [failoverPlan, List.countP_cons, Nat.add_comm]
  | demotion | safeMode =>
    -- neither gives a role of limited capacity
    left
    cases role <;> simp_all [demotionPlan, safeModePlan, capacity]
  | @recovery agent role' target held_ free recovered up room =>
    by_cases same : target = role
    · subst same
      refine .inr ⟨List.countP_le_length, ?_⟩
      simpa [vacant, limited, length_holders] using room
    · left
      simp [recoveryPlan, same]
  | @exchange agent holder role' target =>
    refine .inl (Nat.le_of_eq ?_)
    simp [recoveryPlan, List.countP_cons, Nat.add_comm]

theorem Offer.held_le (h : Offer o d p) (ordered : d.roles.Ordered) (limited : capacity o.settings role = some n) :
    held (d.add p).roles role ≤ max n (held d.roles role) := by
  have balance := held_reassign ordered (h.nodup ordered) (fun c hc => by
    obtain ⟨-, r, old, entry, -⟩ := h.change hc
    exact ⟨r, old, entry⟩) role
  have flow := h.flow limited
  have after : (d.add p).roles = reassign d.roles p.changes := rfl
  rw [after]
  omega

end Offer

theorem Drafting.held_le {o : Outlook} {roles : RoleTable} {d : Draft} (h : Drafting o { roles } d)
    (start : roles.Ordered) {role : Role} {n : Nat} (limited : capacity o.settings role = some n) :
    held d.roles role ≤ max n (held roles role) := by
  induction h with
  | none => exact Nat.le_max_right ..
  | hold _ n ih => exact ih
  | @add d p drafting offer ih =>
    have more := offer.held_le (drafting.ordered start) limited
    omega

/-- Whatever the reassigner remembers and knows of the agents: each change that is planned moves
its agent on from the role that it has to another; no agent is named twice, so that any of the
plans, carried out in any order on any roles, come to the same; and once all are carried out
there is one primary and there are as many backups as the settings provide for, or else no more
of either than there were. -/
theorem plans_well_formed (o : Outlook) {roles : RoleTable} (ordered : roles.Ordered) :
    let plans := (plan o roles).plans
    let after := reassign roles (plans.flatMap (·.changes))
    (∀ p ∈ plans, ∀ c ∈ p.changes, ∃ r, c.old = some r ∧ roles.get? c.agent = some r ∧ r ≠ c.new) ∧
      (plans.flatMap Plan.agents).Nodup ∧
      (∀ (t : RoleTable) (xs ys : List Plan), xs.Subperm plans → xs.Perm ys →
        ∀ a, (reassign t (xs.flatMap (·.changes))).get? a = (reassign t (ys.flatMap (·.changes))).get? a) ∧
      held after .primary ≤ max 1 (held roles .primary) ∧
      held after .backup ≤ max o.settings.backupCapacity (held roles .backup) := by
  intro plans after
  have drafting := drafting_plan o roles
  have once : (plans.flatMap Plan.agents).Nodup := drafting.claimed_eq ▸ drafting.nodup ordered
  have drafted : after = (plan o roles).roles := drafting.roles_eq.symm
  refine ⟨fun p hp c hc => ?_, once, fun t xs ys some_ same a => ?_, ?_, ?_⟩
  · obtain ⟨r, old, entry, moves⟩ := drafting.change hp hc
    exact ⟨r, old, ordered.get?_eq_some.mpr entry, moves⟩
  · exact get?_reassign_perm (nodup_agents_of_subperm once some_) same a
  · exact drafted ▸ drafting.held_le ordered rfl
  · exact drafted ▸ drafting.held_le ordered rfl

/-- A primary that has failed, a backup that is well, a standby agent that has failed, and one
in safe mode that has recovered. -/
def strained : RoleTable := ⟨[("B", .primary), ("C", .backup), ("D", .standby), ("E", .safeMode)]⟩

/-- What the leader of the four knows of them. -/
def strain : Outlook :=
  let failed : HealthHistory := { thresholds := thresholds {}, recent := HealthHistory.unsampled.push 0.9, streak := 3 }
  let well : HealthHistory :=
    { thresholds := thresholds {}, recent := HealthHistory.unsampled.push 0.1, recoveringSince := some (.ofSeconds 0) }
  { self := "A", settings := {}, tracker := none, now := .ofSeconds 100
    memory := { histories := ⟨[("B", failed), ("C", well), ("D", failed), ("E", well)]⟩ }
    windows := { hysteresis := 300000000000, recovery := 90000000000 } }

/-- A failover, a retreat to safe mode and a promotion: carried out backwards they come to the
same, and there is one primary still. -/
theorem plans_well_formed_strained :
    let plans := (plan strain strained).plans
    plans.map (·.trigger) = [.failover, .safeMode, .recovery] ∧ strained.Ordered ∧
      (∀ a, (reassign strained (plans.reverse.flatMap (·.changes))).get? a =
        (reassign strained (plans.flatMap (·.changes))).get? a) ∧
      held (reassign strained (plans.flatMap (·.changes))) .primary ≤ 1 := by
  have ordered : strained.Ordered := by unfold Table.Ordered; decide
  obtain ⟨-, -, same, primary, -⟩ := plans_well_formed strain ordered
  refine ⟨by decide +kernel, ordered, fun a => ?_, Nat.le_trans primary (by decide)⟩
  exact same strained _ _ ⟨_, (List.reverse_perm _).symm, List.Sublist.refl _⟩ (List.reverse_perm _) a

end FleetCoordination.Reassignment
