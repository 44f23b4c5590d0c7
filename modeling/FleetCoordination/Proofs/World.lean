import FleetCoordination.Proofs.Table
import FleetCoordination.Reassignment.Cycle
/-!
# Worlds in order

However a registry has come about, its peers are in order. So are the alive agents, and
the roles that a cycle reads off them.
-/
namespace FleetCoordination

namespace Table

theorem Ordered.modify {α : Type} {t : Table AgentId α} (h : t.Ordered) (k : AgentId) (f : α → α) :
    (t.modify k f).Ordered := by
  unfold Table.modify
  split
  · exact h.insert k _
  · exact h

end Table

namespace Registry

/-- Whether a registry has come about by changes. -/
def Built (r : Registry) : Prop := ∃ changes : List Change, r = changes.foldl apply {}

theorem ordered_apply {r : Registry} (h : r.world.peers.Ordered) (c : Change) : (r.apply c).world.peers.Ordered := by
  cases c with
  | register view agent role => exact h.insert agent _
  | alive agent alive => exact h.modify agent _
  | health agent health => exact h.modify agent _
  | risk agent risk => exact h.modify agent _
  | role | link | defaultLink | view => exact h

theorem Built.ordered {r : Registry} (h : r.Built) : r.world.peers.Ordered := by
  obtain ⟨changes, rfl⟩ := h
  have run (start : Registry) (h : start.world.peers.Ordered) : (changes.foldl apply start).world.peers.Ordered := by
    induction changes generalizing start with
    | nil => exact h
    | cons c rest ih => exact ih _ (ordered_apply h c)
  exact run {} .nil

end Registry

namespace Reassignment.Reassigner
variable {w : World} {roles : RoleTable} {a : AgentId} {r : Role}

theorem mem_aliveRoles : (a, r) ∈ (aliveRoles w roles).entries ↔ a ∈ w.alive ∧ roles.get? a = some r := by
  simp only [aliveRoles, List.mem_filterMap, Option.map_eq_some_iff, Prod.mk.injEq]
  constructor
  · rintro ⟨a, ha, r, held, rfl, rfl⟩
    exact ⟨ha, held⟩
  · rintro ⟨ha, held⟩
    exact ⟨a, ha, r, held, rfl, rfl⟩

theorem ordered_aliveRoles (h : w.peers.Ordered) : (aliveRoles w roles).Ordered := by
  have alive : w.alive.Pairwise (· < ·) := h.filter _
  have keys (agents : List AgentId) :
      ((agents.filterMap fun a => (roles.get? a).map (a, ·)).map (·.1)).Sublist agents := by
    induction agents with
    | nil => exact .slnil
    | cons a rest ih =>
      cases held : roles.get? a with
      | none => simpa [held] using ih.cons a
      | some r => simpa [held] using ih.cons_cons a
  exact alive.sublist (keys w.alive)

end Reassignment.Reassigner

end FleetCoordination
