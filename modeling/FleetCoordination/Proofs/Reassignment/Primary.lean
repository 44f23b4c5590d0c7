import Mathlib.Data.List.Flatten
import Mathlib.Data.List.Pairwise
import FleetCoordination.Proofs.Reassignment.Cycle
import FleetCoordination.Proofs.World
/-!
# The primary

The plans of a cycle hand the first role on from one agent to another, within one plan or
by a demotion and a recovery that fills the place. All plans are drafted as if those before
them were carried out, yet they stand or fall one by one.
-/
namespace FleetCoordination.Reassignment

/-- Whether at most one alive agent is primary. -/
def SolePrimary (w : World) (roles : RoleTable) : Prop :=
  ∀ a ∈ w.alive, ∀ b ∈ w.alive, roles.get? a = some .primary → roles.get? b = some .primary → a = b

instance (w : World) (roles : RoleTable) : Decidable (SolePrimary w roles) :=
  inferInstanceAs (Decidable (∀ a ∈ w.alive, ∀ b ∈ w.alive, _ → _ → _))

/-! ## Plans that touch the primary -/

section Offer
variable {o : Outlook} {d : Draft} {p : Plan} {c : RoleChange} {a : AgentId}

theorem not_vacant_primary {s : ReassignmentSettings} (room : vacant s d .primary = true) :
    (a, .primary) ∉ d.roles.entries := by
  have none : d.holders .primary = [] := by simpa [vacant, capacity] using room
  rw [← mem_holders, none]
  exact List.not_mem_nil

/-- A plan makes one agent primary at most, and names the agent that is or, as a recovery,
finds none. -/
theorem Offer.raises (h : Offer o d p) (hc : c ∈ p.changes) (raised : c.new = .primary) :
    (∀ c' ∈ p.changes, c'.new = .primary → c' = c) ∧
      ((∃ holder ∈ p.agents, (holder, .primary) ∈ d.roles.entries) ∨
        p.trigger = .recovery ∧ ∀ a, (a, .primary) ∉ d.roles.entries) := by
  cases h with
  | failover held free degraded found =>
    obtain ⟨rank, -⟩ := of_replacement found
    refine ⟨?_, .inl ⟨_, by simp [Plan.agents, failoverPlan], held⟩⟩
    grind [failoverPlan]
  | demotion | safeMode => simp_all [demotionPlan, safeModePlan]
  | recovery held free recovered up room =>
    obtain rfl : c = _ := by simpa [recoveryPlan] using hc
    obtain rfl := raised
    exact ⟨by simp [recoveryPlan], .inr ⟨rfl, fun a => not_vacant_primary room⟩⟩
  | exchange held free recovered up full found =>
    have differ := ne_of_promotion up
    obtain rfl | rfl : c = _ ∨ c = _ := by simpa [recoveryPlan] using hc
    · obtain rfl := raised
      refine ⟨by simp [recoveryPlan, differ], .inl ⟨_, ?_, (of_displaceable found).1⟩⟩
      simp [Plan.agents, recoveryPlan]
    · obtain rfl := raised
      cases up

/-- A plan that takes the first role from an agent is a demotion or gives it to another. -/
theorem Offer.lowers (h : Offer o d p) (hc : c ∈ p.changes) (lowered : c.old = some .primary) :
    p.trigger = .demotion ∨ ∃ c' ∈ p.changes, c'.new = .primary := by
  cases h with
  | failover => exact .inr ⟨_, List.mem_cons_of_mem _ (List.mem_singleton_self _), rfl⟩
  | demotion => exact .inl rfl
  | safeMode held free rank => simp_all [safeModePlan]
  | recovery held free recovered up =>
    obtain rfl : c = _ := by simpa [recoveryPlan] using hc
    obtain rfl := Option.some.inj lowered
    cases up
  | exchange held free recovered up full found =>
    obtain rfl | rfl : c = _ ∨ c = _ := by simpa [recoveryPlan] using hc
    · obtain rfl := Option.some.inj lowered
      cases up
    · exact .inr ⟨_, List.mem_cons_self, Option.some.inj lowered⟩

end Offer

/-- Whether a plan names an agent, or is a recovery that comes upon a demotion of it. -/
def Covered (plans : List Plan) (p : Plan) (a : AgentId) : Prop :=
  a ∈ p.agents ∨ p.trigger = .recovery ∧ ∃ q ∈ plans, q.trigger = .demotion ∧ a ∈ q.agents

theorem Covered.append {plans : List Plan} {p : Plan} {a : AgentId} (h : Covered plans p a) (more : List Plan) :
    Covered (plans ++ more) p a :=
  h.imp_right fun ⟨recovery, q, hq, demoted⟩ => ⟨recovery, q, List.mem_append_left more hq, demoted⟩

/-- What a draft keeps about the primary, from roles with one at most: one change at most makes
an agent primary, and it comes with another that the primary there was is named in. -/
structure Primaries (roles : RoleTable) (d : Draft) : Prop where
  sole : ∀ a b, (a, .primary) ∈ d.roles.entries → (b, .primary) ∈ d.roles.entries → a = b
  raised : ∀ p ∈ d.plans, ∀ c ∈ p.changes, c.new = .primary →
    ∀ q ∈ d.plans, ∀ c' ∈ q.changes, c'.new = .primary → c' = c
  covered : ∀ p ∈ d.plans, ∀ c ∈ p.changes, c.new = .primary →
    ∀ a, (a, .primary) ∈ roles.entries → Covered d.plans p a

namespace Primaries
variable {o : Outlook} {roles : RoleTable} {d : Draft} {p : Plan} {c : RoleChange} {a : AgentId}

theorem named (h : Primaries roles d) (offer : Offer o d p) (hc : c ∈ p.changes) (new : c.new = .primary)
    (ha : (a, .primary) ∈ d.roles.entries) : a ∈ p.agents := by
  obtain ⟨-, ⟨holder, named, held⟩ | ⟨-, none⟩⟩ := offer.raises hc new
  · exact h.sole a holder ha held ▸ named
  · exact (none a ha).elim

/-- A plan that makes an agent primary is the first that does. -/
theorem first (h : Primaries roles d) (drafting : Drafting o { roles } d) (start : roles.Ordered) (offer : Offer o d p)
    (hc : c ∈ p.changes) (new : c.new = .primary) {q : Plan} (hq : q ∈ d.plans) {c' : RoleChange}
    (hc' : c' ∈ q.changes) : c'.new ≠ .primary := by
  intro new'
  have held : (c'.agent, .primary) ∈ d.roles.entries := new' ▸ drafting.planned start hq hc'
  exact (offer.free (h.named offer hc new held)).1 (drafting.mem_claimed.mpr ⟨q, hq, c', hc', rfl⟩)

theorem sole_add (h : Primaries roles d) (drafting : Drafting o { roles } d) (start : roles.Ordered)
    (offer : Offer o d p) (b : AgentId) (ha : (a, .primary) ∈ (d.add p).roles.entries)
    (hb : (b, .primary) ∈ (d.add p).roles.entries) : a = b := by
  have after := drafting.add offer
  -- a holder was made one by the plan, or was one before and is not named
  have holder a (ha : (a, .primary) ∈ (d.add p).roles.entries) :
      (∃ c ∈ p.changes, c.agent = a ∧ c.new = .primary) ∨ a ∉ p.agents ∧ (a, .primary) ∈ d.roles.entries := by
    by_cases named : a ∈ p.agents
    · obtain ⟨c, hc, rfl⟩ := List.mem_map.mp named
      have planned := after.planned start (List.mem_append_right _ (List.mem_singleton_self p)) hc
      exact .inl ⟨c, hc, rfl, (after.ordered start).unique planned ha⟩
    · exact .inr ⟨named, (mem_reassign_ne named).mp ha⟩
  obtain ⟨c, hc, rfl, new⟩ | ⟨unnamed, held⟩ := holder a ha
  · obtain ⟨c', hc', rfl, new'⟩ | ⟨unnamed', held'⟩ := holder b hb
    · rw [(offer.raises hc new).1 c' hc' new']
    · exact (unnamed' (h.named offer hc new held')).elim
  · obtain ⟨c', hc', rfl, new'⟩ | ⟨-, held'⟩ := holder b hb
    · exact (unnamed (h.named offer hc' new' held)).elim
    · exact h.sole a b held held'

end Primaries

namespace Drafting
variable {o : Outlook} {roles : RoleTable} {d : Draft} {p : Plan}

theorem covered (drafting : Drafting o { roles } d) (start : roles.Ordered)
    (sole : ∀ a b, (a, .primary) ∈ roles.entries → (b, .primary) ∈ roles.entries → a = b) (offer : Offer o d p)
    {c : RoleChange} (hc : c ∈ p.changes) (new : c.new = .primary) {a : AgentId} (ha : (a, .primary) ∈ roles.entries) :
    Covered d.plans p a := by
  obtain ⟨-, ⟨holder, named, held⟩ | ⟨recovery, none⟩⟩ := offer.raises hc new
  · have came := (drafting.entry (offer.free named).1).mp held
    exact .inl (sole a holder ha came ▸ named)
  · -- the primary has been named, and not by a plan that made another agent primary
    have claimed : a ∈ d.claimed := by
      by_contra unnamed
      exact none a ((drafting.entry unnamed).mpr ha)
    obtain ⟨q, hq, c', hc', rfl⟩ := drafting.mem_claimed.mp claimed
    obtain ⟨r, from_, came, -⟩ := drafting.change hq hc'
    obtain rfl := start.unique came ha
    have lowers := drafting.forall_plans fun d' q (offer : Offer o d' q) c' (hc' : c' ∈ q.changes) => offer.lowers hc'
    obtain demotion | ⟨c'', hc'', new''⟩ := lowers q hq c' hc' from_
    · exact .inr ⟨recovery, q, hq, demotion, List.mem_map_of_mem hc'⟩
    · exact (none c''.agent (new'' ▸ drafting.planned start hq hc'')).elim

theorem primaries (h : Drafting o { roles } d) (start : roles.Ordered)
    (sole : ∀ a b, (a, .primary) ∈ roles.entries → (b, .primary) ∈ roles.entries → a = b) : Primaries roles d := by
  induction h with
  | none => exact ⟨sole, by simp, by simp⟩
  | hold _ n ih => exact ⟨ih.sole, ih.raised, ih.covered⟩
  | @add d p drafting offer ih =>
    refine ⟨fun a b => ih.sole_add drafting start offer b, fun q hq c hc new q' hq' c' hc' new' => ?_,
      fun q hq c hc new a ha => ?_⟩
    · rcases List.mem_append.mp hq with old | last
      · rcases List.mem_append.mp hq' with old' | last'
        · exact ih.raised q old c hc new q' old' c' hc' new'
        · rw [List.mem_singleton.mp last'] at hc'
          exact (ih.first drafting start offer hc' new' old hc new).elim
      · rw [List.mem_singleton.mp last] at hc
        rcases List.mem_append.mp hq' with old' | last'
        · exact (ih.first drafting start offer hc new old' hc' new').elim
        · rw [List.mem_singleton.mp last'] at hc'
          exact (offer.raises hc new).1 c' hc' new'
    · rcases List.mem_append.mp hq with old | last
      · exact (ih.covered q old c hc new a ha).append [p]
      · rw [List.mem_singleton.mp last] at hc ⊢
        exact (drafting.covered start sole offer hc new ha).append [p]

theorem primaries_of_sole {w : World} {roles : RoleTable} (h : Drafting o { roles := Reassigner.aliveRoles w roles } d)
    (ordered : w.peers.Ordered) (start : SolePrimary w roles) : Primaries (Reassigner.aliveRoles w roles) d := by
  refine h.primaries (Reassigner.ordered_aliveRoles ordered) fun a b ha hb => ?_
  obtain ⟨alive, held⟩ := Reassigner.mem_aliveRoles.mp ha
  obtain ⟨alive', held'⟩ := Reassigner.mem_aliveRoles.mp hb
  exact start a alive b alive' held held'

end Drafting

/-! ## Attempts -/

/-- The roles once the committed attempts have set those that they name, in order. -/
def enacted (roles : RoleTable) (attempts : List Attempt) : RoleTable :=
  reassign roles ((attempts.filter (·.committed)).flatMap (·.changes))

/-- Whether the demotion of a primary has failed and a recovery has filled its place. -/
def Usurped (attempts : List Attempt) : Prop :=
  (∃ x ∈ attempts, x.trigger = .demotion ∧ x.committed = false ∧ ∃ c ∈ x.changes, c.old = some .primary) ∧
    ∃ x ∈ attempts, x.trigger = .recovery ∧ x.committed = true ∧ ∃ c ∈ x.changes, c.new = .primary

instance (attempts : List Attempt) : Decidable (Usurped attempts) := by
  unfold Usurped
  infer_instance

section Enacted
variable {roles : RoleTable} {attempts : List Attempt}

theorem enacted_snoc (roles : RoleTable) (attempts : List Attempt) (x : Attempt) :
    enacted roles (attempts ++ [x]) =
      if x.committed then reassign (enacted roles attempts) x.changes else enacted roles attempts := by
  unfold enacted
  cases committed : x.committed <;> simp [List.filter_append, committed, reassign_append]

theorem get?_enacted (once : ((attempts.flatMap (·.changes)).map (·.agent)).Nodup) {x : Attempt} (hx : x ∈ attempts)
    (committed : x.committed = true) {c : RoleChange} (hc : c ∈ x.changes) :
    (enacted roles attempts).get? c.agent = some c.new := by
  have sub := (List.filter_sublist (p := fun x => x.committed) (l := attempts)).flatMap (·.changes)
  refine get?_reassign (once.sublist (sub.map _)) ?_
  exact List.mem_flatMap.mpr ⟨x, List.mem_filter.mpr ⟨hx, committed⟩, hc⟩

/-- Agents that no committed attempt names keep their roles. -/
theorem get?_enacted_ne {a : AgentId}
    (unnamed : ∀ x ∈ attempts, x.committed = true → ∀ c ∈ x.changes, c.agent ≠ a) :
    (enacted roles attempts).get? a = roles.get? a := by
  refine get?_reassign_ne fun named => ?_
  obtain ⟨c, hc, rfl⟩ := List.mem_map.mp named
  obtain ⟨x, hx, hc⟩ := List.mem_flatMap.mp hc
  obtain ⟨hx, committed⟩ := List.mem_filter.mp hx
  exact unnamed x hx committed c hc rfl

theorem enacted_cases (once : ((attempts.flatMap (·.changes)).map (·.agent)).Nodup) {a : AgentId} {r : Role}
    (h : (enacted roles attempts).get? a = some r) :
    (∃ x ∈ attempts, x.committed = true ∧ ∃ c ∈ x.changes, c.agent = a ∧ c.new = r) ∨
      (∀ x ∈ attempts, x.committed = true → ∀ c ∈ x.changes, c.agent ≠ a) ∧ roles.get? a = some r := by
  by_cases named : ∃ x ∈ attempts, x.committed = true ∧ ∃ c ∈ x.changes, c.agent = a
  · obtain ⟨x, hx, committed, c, hc, rfl⟩ := named
    rw [get?_enacted once hx committed hc] at h
    exact .inl ⟨x, hx, committed, c, hc, rfl, Option.some.inj h⟩
  · have unnamed : ∀ x ∈ attempts, x.committed = true → ∀ c ∈ x.changes, c.agent ≠ a :=
      fun x hx committed c hc same => named ⟨x, hx, committed, c, hc, same⟩
    exact .inr ⟨unnamed, (get?_enacted_ne unnamed).symm.trans h⟩

end Enacted

/-! ## Attempts of a draft -/

theorem agents_attempts {attempts : List Attempt} {plans : List Plan}
    (outlines : attempts.map Attempt.outline = plans.map Plan.outline) :
    attempts.flatMap (fun x => x.changes.map (·.agent)) = plans.flatMap Plan.agents := by
  have agents : attempts.flatMap (fun x => x.changes.map (·.agent)) =
      (attempts.map Attempt.outline).flatMap (fun e => e.2.map (·.agent)) := by
    rw [List.flatMap_map]
    rfl
  rw [agents, outlines, List.flatMap_map]
  rfl

/-- Attempts at the plans that are drafted from the roles of the alive agents. -/
structure Tried (w : World) (roles : RoleTable) (o : Outlook) (d : Draft) (attempts : List Attempt) : Prop where
  ordered : w.peers.Ordered
  drafting : Drafting o { roles := Reassigner.aliveRoles w roles } d
  outlines : attempts.map Attempt.outline = d.plans.map Plan.outline

namespace Tried
variable {w : World} {roles : RoleTable} {o : Outlook} {d : Draft} {attempts : List Attempt} {x y : Attempt}
  {c c' : RoleChange}

theorem plan (h : Tried w roles o d attempts) (hx : x ∈ attempts) :
    ∃ p ∈ d.plans, p.trigger = x.trigger ∧ p.changes = x.changes := by
  obtain ⟨p, hp, same⟩ := List.mem_map.mp (h.outlines ▸ List.mem_map_of_mem hx)
  obtain ⟨trigger, changes⟩ := Prod.mk.inj same
  exact ⟨p, hp, trigger, changes⟩

theorem attempt (h : Tried w roles o d attempts) {p : Plan} (hp : p ∈ d.plans) :
    ∃ x ∈ attempts, x.trigger = p.trigger ∧ x.changes = p.changes := by
  obtain ⟨x, hx, same⟩ := List.mem_map.mp (h.outlines.symm ▸ List.mem_map_of_mem hp)
  obtain ⟨trigger, changes⟩ := Prod.mk.inj same
  exact ⟨x, hx, trigger, changes⟩

/-- A change is made from the role of an alive agent. -/
theorem came (h : Tried w roles o d attempts) (hx : x ∈ attempts) (hc : c ∈ x.changes) :
    c.agent ∈ w.alive ∧ roles.get? c.agent = c.old := by
  obtain ⟨p, hp, -, changes⟩ := h.plan hx
  obtain ⟨r, from_, entry, -⟩ := h.drafting.change hp (changes ▸ hc)
  rw [from_]
  exact Reassigner.mem_aliveRoles.mp entry

theorem nodup (h : Tried w roles o d attempts) : (attempts.flatMap (fun x => x.changes.map (·.agent))).Nodup := by
  rw [agents_attempts h.outlines, ← h.drafting.claimed_eq]
  exact h.drafting.nodup (Reassigner.ordered_aliveRoles h.ordered)

/-- Two attempts name no agent in common. -/
theorem unique (h : Tried w roles o d attempts) (hx : x ∈ attempts) (hy : y ∈ attempts) (hc : c ∈ x.changes)
    (hc' : c' ∈ y.changes) (same : c.agent = c'.agent) : x = y := by
  have apart := (List.nodup_flatMap.mp h.nodup).2
  have : Std.Symm (Function.onFun List.Disjoint fun x : Attempt => x.changes.map (·.agent)) := ⟨fun _ _ h _ hx hy => h hy hx⟩
  by_contra differ
  exact apart.forall hx hy differ (List.mem_map_of_mem hc) (same ▸ List.mem_map_of_mem hc')

theorem primaries (h : Tried w roles o d attempts) (start : SolePrimary w roles) :
    Primaries (Reassigner.aliveRoles w roles) d := h.drafting.primaries_of_sole h.ordered start

/-- One agent at most is made primary. -/
theorem raised (h : Tried w roles o d attempts) (start : SolePrimary w roles) (hx : x ∈ attempts)
    (hc : c ∈ x.changes) (new : c.new = .primary) (hy : y ∈ attempts) (hc' : c' ∈ y.changes)
    (new' : c'.new = .primary) : c.agent = c'.agent := by
  obtain ⟨p, hp, -, changes⟩ := h.plan hx
  obtain ⟨q, hq, -, changes'⟩ := h.plan hy
  rw [(h.primaries start).raised p hp c (changes ▸ hc) new q hq c' (changes' ▸ hc') new']

/-- A committed attempt that makes an agent primary while another stays so has followed upon a
failed demotion. -/
theorem usurped (h : Tried w roles o d attempts) (start : SolePrimary w roles) (hx : x ∈ attempts)
    (committed : x.committed = true) (hc : c ∈ x.changes) (new : c.new = .primary) {b : AgentId}
    (alive : b ∈ w.alive) (held : roles.get? b = some .primary)
    (unnamed : ∀ y ∈ attempts, y.committed = true → ∀ c ∈ y.changes, c.agent ≠ b) : Usurped attempts := by
  obtain ⟨p, hp, trigger, changes⟩ := h.plan hx
  have covered := (h.primaries start).covered p hp c (changes ▸ hc) new b
    (Reassigner.mem_aliveRoles.mpr ⟨alive, held⟩)
  obtain named | ⟨recovery, q, hq, demotion, demoted⟩ := covered
  · obtain ⟨c', hc', same⟩ := List.mem_map.mp named
    exact (unnamed x hx committed c' (changes ▸ hc') same).elim
  · obtain ⟨y, hy, trigger', changes'⟩ := h.attempt hq
    obtain ⟨c', hc', rfl⟩ := List.mem_map.mp demoted
    rw [← changes'] at hc'
    have failed : y.committed = false := Bool.eq_false_iff.mpr fun done => unnamed y hy done c' hc' rfl
    have old : c'.old = some .primary := (h.came hy hc').2.symm.trans held
    exact ⟨⟨y, hy, trigger'.trans demotion, failed, c', hc', old⟩,
      x, hx, trigger.symm.trans recovery, committed, c, hc, new⟩

/-- One alive agent at most stays primary just when no recovery fills a place that a failed
demotion has left taken. -/
theorem sole_iff (h : Tried w roles o d attempts) (start : SolePrimary w roles) :
    SolePrimary w (enacted roles attempts) ↔ ¬Usurped attempts := by
  have once : ((attempts.flatMap (·.changes)).map (·.agent)).Nodup := by
    rw [List.map_flatMap]
    exact h.nodup
  constructor
  · rintro unique ⟨⟨x, hx, -, failed, c, hc, old⟩, y, hy, -, committed, c', hc', new⟩
    obtain ⟨alive, held⟩ := h.came hx hc
    have unnamed : ∀ z ∈ attempts, z.committed = true → ∀ c' ∈ z.changes, c'.agent ≠ c.agent := by
      intro z hz done c' hc' same
      obtain rfl := h.unique hz hx hc' hc same
      simp [failed] at done
    have stays := (get?_enacted_ne unnamed).trans (held.trans old)
    have filled : (enacted roles attempts).get? c'.agent = some .primary := new ▸ get?_enacted once hy committed hc'
    have same := unique _ (h.came hy hc').1 _ alive filled stays
    exact unnamed y hy committed c' hc' same
  · intro orderly a ha b hb hpa hpb
    obtain ⟨x, hx, done, c, hc, rfl, new⟩ | ⟨unnamed, held⟩ := enacted_cases once hpa
    · obtain ⟨y, hy, done', c', hc', rfl, new'⟩ | ⟨unnamed', held'⟩ := enacted_cases once hpb
      · exact h.raised start hx hc new hy hc' new'
      · exact (orderly (h.usurped start hx done hc new hb held' unnamed')).elim
    · obtain ⟨y, hy, done', c', hc', rfl, new'⟩ | ⟨unnamed', held'⟩ := enacted_cases once hpb
      · exact (orderly (h.usurped start hy done' hc' new' ha held unnamed)).elim
      · exact start a ha b hb held held'

end Tried

/-! ## Cycles -/

variable {σ : Type} {propose : σ → Plan → σ × Except Fault ProposalResult} {s s' : Reassigner.Setting σ}
  {r : Registry} {roles : RoleTable} {now : Timestamp} {leads : Bool} {report : CycleReport}

/-- A cycle that finds one primary at most leaves one at most after each of its proposals, unless
by then one has failed to demote the primary and another has promoted an agent to its place. -/
theorem sole_primary_iff (built : r.Built) (h : Reassigner.run propose s leads r.world roles now = some (s', report))
    (start : SolePrimary r.world roles) (k : Nat) :
    SolePrimary r.world (enacted roles (report.attempts.take k)) ↔ ¬Usurped (report.attempts.take k) := by
  cases leads with
  | false =>
    obtain ⟨-, rfl⟩ := Reassigner.run_follows h
    have none : ({} : CycleReport).attempts.take k = [] := List.take_nil
    rw [none]
    exact iff_of_true start (by simp [Usurped])
  | true =>
    obtain ⟨windows, -, tried, -⟩ := Reassigner.run_leads h
    obtain ⟨d, drafting, plans⟩ := (drafting_plan _ (Reassigner.aliveRoles r.world roles)).take k
    have outlines : (report.attempts.take k).map Attempt.outline = d.plans.map Plan.outline := by
      rw [plans, List.map_take, List.map_take, tried]
    exact Tried.sole_iff ⟨built.ordered, drafting, outlines⟩ start

/-! ## A demotion and a recovery -/

/-- A primary and a backup of a leader that has no role to lose. -/
def trio : Registry :=
  [.register 0 "A" .standby, .register 0 "B" .primary, .register 0 "C" .backup].foldl Registry.apply {}

theorem built_trio : trio.Built := ⟨_, rfl⟩

/-- Voters that follow a script, and deny what it does not tell. -/
def scripted (script : List Outcome) (_ : Plan) : List Outcome × Except Fault ProposalResult :=
  (script.tail, .ok { id := .ofNat 0, outcome := script.headD .denied, grants := 0, denies := 0, quorum := 1, alive := 3 })

def leader : Reassigner := { self := "A" }

def review (s : Reassigner.Setting (List Outcome)) (now : Int) :
    Option (Reassigner.Setting (List Outcome) × CycleReport) :=
  Reassigner.run scripted s true trio.world (trio.table 0) (.ofSeconds now)

/-- The leader after a first cycle, when the primary has missed five propagations. -/
def missed (script : List Outcome) : Option (Reassigner.Setting (List Outcome)) :=
  (review { reassigner := leader, tracker := none, voters := script } 0).map fun x =>
    { x.1 with tracker := some ⟨⟨[("B", { expected := 5 })]⟩⟩ }

/-- The backup takes the place of the primary once that is demoted. -/
theorem sole_primary_succession : ∃ s s' report, missed [.approved, .approved] = some s ∧
    review s 90 = some (s', report) ∧ SolePrimary trio.world (trio.table 0) ∧ report.attempts.length = 2 ∧
    SolePrimary trio.world (enacted (trio.table 0) (report.attempts.take 2)) := by
  have ran : ((missed [.approved, .approved]).bind (review · 90)).any
      (fun x => decide (x.2.attempts.length = 2 ∧ ¬Usurped (x.2.attempts.take 2))) = true := by decide +kernel
  simp only [Option.any_eq_true, Option.bind_eq_some_iff, decide_eq_true_eq] at ran
  obtain ⟨⟨s', report⟩, ⟨s, first, second⟩, two, orderly⟩ := ran
  have start : SolePrimary trio.world (trio.table 0) := by decide +kernel
  exact ⟨s, s', report, first, second, start, two, (sole_primary_iff built_trio second start 2).mpr orderly⟩

/-- The backup takes the place of the primary although that has not been demoted. -/
theorem two_primaries : ∃ s s' report, missed [.denied, .approved] = some s ∧ review s 90 = some (s', report) ∧
    SolePrimary trio.world (trio.table 0) ∧ ¬SolePrimary trio.world (enacted (trio.table 0) report.attempts) := by
  have ran : ((missed [.denied, .approved]).bind (review · 90)).any
      (fun x => decide (¬SolePrimary trio.world (enacted (trio.table 0) x.2.attempts))) = true := by decide +kernel
  simp only [Option.any_eq_true, Option.bind_eq_some_iff, decide_eq_true_eq] at ran
  obtain ⟨⟨s', report⟩, ⟨s, first, second⟩, both⟩ := ran
  exact ⟨s, s', report, first, second, by decide +kernel, both⟩

end FleetCoordination.Reassignment
