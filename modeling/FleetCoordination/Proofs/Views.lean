import Mathlib.Data.List.Induction
import FleetCoordination.Proofs.World
import FleetCoordination.Views
/-!
# What views share

All views refer to one world, and no two of them to one role table. So the views stand for a
registry: what is done through any of them to the world is seen through all, and what is done to
the roles of one is seen through that one only.
-/
namespace FleetCoordination

/-! ## Worlds -/

namespace World
variable {w : World} {a b : AgentId}

/-- Whether each link is listed in both directions with the same quality. -/
def Mutual (w : World) : Prop := ∀ a b, w.links.lookup (a, b) = w.links.lookup (b, a)

theorem lookup_setLink (w : World) (a b x y : AgentId) (quality : Float) :
    (w.setLink a b quality).links.lookup (x, y) =
      if (x, y) = (a, b) ∨ (x, y) = (b, a) then some quality else w.links.lookup (x, y) := by
  have others (links : List ((AgentId × AgentId) × Float)) (h : ¬((x, y) = (a, b) ∨ (x, y) = (b, a))) :
      (links.filter fun l => decide (l.1 ≠ (a, b) ∧ l.1 ≠ (b, a))).lookup (x, y) = links.lookup (x, y) := by
    induction links with
    | nil => rfl
    | cons l rest ih => grind
  split
  · next listed => grind [setLink]
  · next other =>
    rw [← others w.links other]
    grind [setLink]

theorem Mutual.setLink (h : w.Mutual) (a b : AgentId) (quality : Float) : (w.setLink a b quality).Mutual := by
  intro x y
  have either : (x, y) = (a, b) ∨ (x, y) = (b, a) ↔ (y, x) = (a, b) ∨ (y, x) = (b, a) := by
    simp only [Prod.mk.injEq, and_comm, or_comm]
  simp only [lookup_setLink, h x y, either]

theorem Mutual.quality?_comm (h : w.Mutual) (a b : AgentId) : w.quality? a b = w.quality? b a := by
  have either : (a = b ∨ !w.peers.contains a ∨ !w.peers.contains b) ↔
      (b = a ∨ !w.peers.contains b ∨ !w.peers.contains a) := by
    rw [eq_comm, or_comm (a := (!w.peers.contains a) = true)]
  simp only [quality?, h a b, either]

theorem quality?_eq_none (h : a = b ∨ w.peers.contains a = false ∨ w.peers.contains b = false) :
    w.quality? a b = none := by
  simp only [quality?, Bool.not_eq_true', h, if_true]

end World

/-! ## Operations -/

namespace Views.Operation
variable {w : World} {a : AgentId}

theorem onWorld_change (o : Operation) (r : Registry) (seen : Nat) :
    (r.apply (o.change seen)).world = o.onWorld r.world := by
  cases o <;> rfl

theorem mutual_onWorld (h : w.Mutual) (o : Operation) : (o.onWorld w).Mutual := by
  cases o with
  | link a b quality => exact h.setLink a b quality
  | _ => exact h

theorem contains_modify {t : Table AgentId Peer} {k : AgentId} {f : Peer → Peer}
    (h : (t.modify k f).contains a = true) : t.contains a = true := by
  unfold Table.modify at h
  split at h
  · next v held =>
    rw [Table.contains, Table.get?_insert] at h
    split at h
    · next same =>
      rw [Table.contains, same, held]
      rfl
    · exact h
  · exact h

/-- An agent comes into a world only by being registered. -/
theorem contains_onWorld {o : Operation} (h : (o.onWorld w).peers.contains a = true) :
    w.peers.contains a = true ∨ ∃ role, o = .register a role := by
  cases o with
  | register b role =>
    simp only [onWorld, World.register, Table.contains, Table.get?_insert] at h
    split at h
    · next same => exact .inr ⟨role, by rw [same]⟩
    · exact .inl h
  | alive | health | risk => exact .inl (contains_modify h)
  | link | defaultLink | role | view => exact .inl h

end Views.Operation

/-! ## Registries -/

namespace Views

/-- The views that stand for a registry: all refer to its world, and each to a table of its own. -/
def ofRegistry (r : Registry) : Views :=
  { worlds := [r.world], tables := r.tables, handles := (List.range r.tables.length).map (⟨0, ·⟩) }

section OfRegistry
variable {r : Registry} {seen : Nat}

theorem length_ofRegistry (r : Registry) : (ofRegistry r).handles.length = r.tables.length := by
  simp [ofRegistry]

theorem handle_ofRegistry (shown : seen < r.tables.length) : (ofRegistry r).handles[seen]? = some ⟨0, seen⟩ := by
  simp [ofRegistry, shown]

theorem world_ofRegistry (shown : seen < r.tables.length) : (ofRegistry r).world seen = r.world := by
  rw [world, handle_ofRegistry shown]
  rfl

theorem table_ofRegistry (shown : seen < r.tables.length) : (ofRegistry r).table seen = r.table seen := by
  rw [table, handle_ofRegistry shown, Registry.table, List.getD_eq_getElem?_getD]
  rfl

/-- What is done through a view is done to the registry in that view. -/
theorem apply_ofRegistry (shown : seen < r.tables.length) (o : Operation) :
    (ofRegistry r).apply seen o = ofRegistry (r.apply (o.change seen)) := by
  have held := handle_ofRegistry shown
  have idle : r.tables.modify seen (fun t => t) = r.tables := List.modify_id ..
  cases o with
  | view =>
    simp only [apply, held, fork]
    simp [ofRegistry, Operation.change, Registry.apply, Registry.addView, Registry.table, List.range_succ]
  | register | role | alive | health | risk | link | defaultLink =>
    simp only [apply, held]
    simp [ofRegistry, Operation.change, Registry.apply, Registry.setRole, Operation.onWorld, Operation.onRoles, idle]

end OfRegistry

/-! ## Runs -/

/-- An operation and the view it is done through. -/
structure Deed where
  view : Nat
  operation : Operation

/-- The views after some deeds, oldest first. -/
def after (deeds : List Deed) : Views := deeds.foldl (fun s d => s.apply d.view d.operation) {}

/-- Whether each deed is done through a view that exists by then. -/
def Proper (deeds : List Deed) : Prop :=
  ∀ before d later, deeds = before ++ d :: later → d.view < (after before).handles.length

/-- The registry that some deeds make. -/
def registry (deeds : List Deed) : Registry := deeds.foldl (fun r d => r.apply (d.operation.change d.view)) {}

section Runs
variable {deeds before later : List Deed} {d : Deed} {a : AgentId}

theorem after_concat (deeds : List Deed) (d : Deed) :
    after (deeds ++ [d]) = (after deeds).apply d.view d.operation := by
  simp [after]

theorem registry_concat (deeds : List Deed) (d : Deed) :
    registry (deeds ++ [d]) = (registry deeds).apply (d.operation.change d.view) := by
  simp [registry]

theorem Proper.init (h : Proper (before ++ later)) : Proper before :=
  fun first d rest e => h first d (rest ++ later) (by simp [e])

theorem proper_of_forall (h : ∀ i : Fin deeds.length, deeds[i].view < (after (deeds.take i)).handles.length) :
    Proper deeds := by
  rintro before d later rfl
  simpa using h ⟨before.length, by simp⟩

theorem Proper.after_eq (h : Proper deeds) : after deeds = ofRegistry (registry deeds) := by
  induction deeds using List.reverseRecOn with
  | nil => rfl
  | append_singleton deeds d ih =>
    have known := h deeds d [] rfl
    rw [ih h.init, length_ofRegistry] at known
    rw [after_concat, registry_concat, ih h.init, apply_ofRegistry known]

theorem Proper.shown (h : Proper deeds) {seen : Nat} :
    seen < (after deeds).handles.length ↔ seen < (registry deeds).tables.length := by
  rw [h.after_eq, length_ofRegistry]

theorem Proper.world_eq (h : Proper deeds) {seen : Nat} (shown : seen < (after deeds).handles.length) :
    (after deeds).world seen = (registry deeds).world := by
  rw [h.after_eq, world_ofRegistry (h.shown.mp shown)]

theorem Proper.table_eq (h : Proper deeds) {seen : Nat} (shown : seen < (after deeds).handles.length) :
    (after deeds).table seen = (registry deeds).table seen := by
  rw [h.after_eq, table_ofRegistry (h.shown.mp shown)]

theorem world_registry (deeds : List Deed) :
    (registry deeds).world = deeds.foldl (fun w d => d.operation.onWorld w) {} := by
  induction deeds using List.reverseRecOn with
  | nil => rfl
  | append_singleton deeds d ih => simp [registry_concat, Operation.onWorld_change, ih]

theorem mutual_registry (deeds : List Deed) : (registry deeds).world.Mutual := by
  induction deeds using List.reverseRecOn with
  | nil => exact fun _ _ => rfl
  | append_singleton deeds d ih =>
    rw [registry_concat, Operation.onWorld_change]
    exact Operation.mutual_onWorld ih _

theorem built_registry (deeds : List Deed) : (registry deeds).Built :=
  ⟨deeds.map fun d => d.operation.change d.view, by rw [registry, List.foldl_map]⟩

/-- Whether an agent has been registered, through any view. -/
def Registered (deeds : List Deed) (a : AgentId) : Prop := ∃ d ∈ deeds, ∃ role, d.operation = .register a role

theorem registered_of_contains (h : (registry deeds).world.peers.contains a = true) : Registered deeds a := by
  induction deeds using List.reverseRecOn with
  | nil => cases h
  | append_singleton deeds d ih =>
    rw [registry_concat, Operation.onWorld_change] at h
    obtain old | ⟨role, new⟩ := Operation.contains_onWorld h
    · obtain ⟨d', hd', role, registers⟩ := ih old
      exact ⟨d', List.mem_append_left _ hd', role, registers⟩
    · exact ⟨d, List.mem_append_right _ (List.mem_singleton_self d), role, new⟩

/-- Links that do not join two agents that have been registered have no quality. -/
theorem quality?_registry {b : AgentId} (unlinked : a = b ∨ ¬Registered deeds a ∨ ¬Registered deeds b) :
    (registry deeds).world.quality? a b = none := by
  have unknown {c : AgentId} (h : ¬Registered deeds c) : (registry deeds).world.peers.contains c = false :=
    Bool.eq_false_iff.mpr fun known => h (registered_of_contains known)
  exact World.quality?_eq_none (unlinked.imp_right (.imp unknown unknown))

/-- Operations on the world, the others being those on a role table and the taking of a view. -/
def Operation.isWorldly : Operation → Bool
  | .role .. | .view => false
  | _ => true

/-- The deeds on the world, all done through the first view. -/
def worldly (deeds : List Deed) : List Deed :=
  (deeds.filter (·.operation.isWorldly)).map fun d => ⟨0, d.operation⟩

theorem foldl_worldly (deeds : List Deed) (w : World) :
    (worldly deeds).foldl (fun w d => d.operation.onWorld w) w = deeds.foldl (fun w d => d.operation.onWorld w) w := by
  induction deeds generalizing w with
  | nil => rfl
  | cons d rest ih =>
    obtain ⟨seen, o⟩ := d
    cases o <;> exact ih _

/-! ## Roles -/

/-- The role that a deed gives to an agent in a view. -/
def Deed.gives? (seen : Nat) (d : Deed) : Option (AgentId × Role) :=
  if d.view = seen then
    match d.operation with
    | .register agent role | .role agent role => some (agent, role)
    | _ => none
  else none

/-- A role table after some roles have been given, oldest first. -/
def given (t : RoleTable) (roles : List (AgentId × Role)) : RoleTable := roles.foldl (fun t e => t.insert e.1 e.2) t

theorem table_apply {r : Registry} {seen : Nat} (shown : seen < r.tables.length) (d : Deed) :
    seen < (r.apply (d.operation.change d.view)).tables.length ∧
      (r.apply (d.operation.change d.view)).table seen = given (r.table seen) (d.gives? seen).toList := by
  obtain ⟨view, o⟩ := d
  have modified (f : RoleTable → RoleTable) :
      (r.tables.modify view f).getD seen {} = if view = seen then f (r.table seen) else r.table seen := by
    simp only [List.getD_eq_getElem?_getD, List.getElem?_modify, Registry.table, List.getElem?_eq_getElem shown]
    split <;> rfl
  cases o with
  | register agent role | role agent role =>
    refine ⟨by simpa [Operation.change, Registry.apply, Registry.setRole] using shown, (modified _).trans ?_⟩
    simp only [Deed.gives?]
    split <;> rfl
  | view =>
    refine ⟨by simp [Operation.change, Registry.apply, Registry.addView]; omega, ?_⟩
    simp [Operation.change, Registry.apply, Registry.addView, Registry.table, Deed.gives?, given,
      List.getElem?_append_left shown]
  | alive | health | risk | link | defaultLink =>
    refine ⟨shown, ?_⟩
    simp only [Deed.gives?]
    split <;> rfl

/-- A view keeps the roles it has, but for those that are given in it. -/
theorem table_append {seen : Nat} (shown : seen < (registry before).tables.length) (later : List Deed) :
    seen < (registry (before ++ later)).tables.length ∧
      (registry (before ++ later)).table seen =
        given ((registry before).table seen) (later.filterMap (Deed.gives? seen)) := by
  induction later using List.reverseRecOn with
  | nil => simpa [given] using shown
  | append_singleton later d ih =>
    obtain ⟨shown', eq⟩ := ih
    rw [← List.append_assoc, registry_concat]
    obtain ⟨still, step⟩ := table_apply shown' d
    refine ⟨still, step.trans ?_⟩
    rw [eq, given, given, given, ← List.foldl_append, List.filterMap_append]
    cases h : d.gives? seen <;> simp [h]

/-- A new view shows the roles of the one that it was taken from. -/
theorem table_view (before : List Deed) (source : Nat) :
    let new := (registry before).tables.length
    new < (registry (before ++ [⟨source, .view⟩])).tables.length ∧
      (registry (before ++ [⟨source, .view⟩])).table new = (registry before).table source := by
  rw [registry_concat]
  simp [Operation.change, Registry.apply, Registry.addView, Registry.table]

/-! ## One registry alone -/

theorem handles_nonempty (deeds : List Deed) : 0 < (after deeds).handles.length := by
  induction deeds using List.reverseRecOn with
  | nil => exact Nat.one_pos
  | append_singleton deeds d ih =>
    rw [after_concat]
    unfold apply
    split
    · exact ih
    · simp [fork]
    · exact ih

/-- The first view is always there. -/
theorem proper_worldly (deeds : List Deed) : Proper (worldly deeds) := by
  intro before d later split
  have first : d ∈ worldly deeds := by simp [split]
  obtain ⟨d', -, rfl⟩ := List.mem_map.mp first
  exact handles_nonempty before

/-- One registry alone comes to the same world. -/
theorem world_worldly (deeds : List Deed) : (after (worldly deeds)).world 0 = (registry deeds).world := by
  rw [(proper_worldly deeds).world_eq (handles_nonempty _), world_registry, world_registry, foldl_worldly]

end Runs

/-! ## Trees of views -/

/-- However views are taken and used, all show one world: the one that a single registry comes to
if all that is done to the world is done to it in that order. Alive agents are in order, each
once; a link is as good in one direction as in the other, and there is none from an agent to
itself or with one that is not registered. A view shows the roles that its source showed when it
was taken, changed by those that have been given in it since. -/
theorem views_share_world {deeds : List Deed} (proper : Proper deeds) :
    let s := after deeds
    let alone := after (worldly deeds)
    (∀ seen < s.handles.length,
      s.alive seen = alone.alive 0 ∧ (s.alive seen).Pairwise (· < ·) ∧
        (∀ a, s.health? seen a = alone.health? 0 a) ∧
        ∀ a b, s.quality? seen a b = alone.quality? 0 a b ∧ s.quality? seen a b = s.quality? seen b a ∧
          (a = b ∨ ¬Registered deeds a ∨ ¬Registered deeds b → s.quality? seen a b = none)) ∧
    s.table 0 = given {} (deeds.filterMap (Deed.gives? 0)) ∧
    ∀ before source later, deeds = before ++ ⟨source, .view⟩ :: later →
      let new := (after before).handles.length
      new < s.handles.length ∧
        s.table new = given ((after before).table source) (later.filterMap (Deed.gives? new)) := by
  intro s alone
  refine ⟨fun seen shown => ?_, ?_, fun before source later split => ?_⟩
  · have held : s.world seen = (registry deeds).world := proper.world_eq shown
    have same : alone.world 0 = (registry deeds).world := world_worldly deeds
    have both := (mutual_registry deeds).quality?_comm
    simp only [alive, health?, quality?, held, same]
    exact ⟨trivial, (built_registry deeds).ordered.filter _, fun _ => trivial, fun a b =>
      ⟨trivial, both a b, quality?_registry⟩⟩
  · have start : 0 < (registry []).tables.length := Nat.one_pos
    obtain ⟨shown, grown⟩ := table_append start deeds
    exact (proper.table_eq (proper.shown.mpr shown)).trans grown
  · intro new
    have earlier : Proper before := (split ▸ proper).init
    have known := proper before ⟨source, .view⟩ later split
    have numbered : new = (registry before).tables.length := by
      simp only [new]
      rw [earlier.after_eq, length_ofRegistry]
    obtain ⟨taken, copied⟩ := table_view before source
    obtain ⟨shown, grown⟩ := table_append taken later
    rw [List.append_assoc, List.singleton_append, ← split, ← numbered] at shown grown
    have shown' := proper.shown.mpr shown
    refine ⟨shown', (proper.table_eq shown').trans (grown.trans ?_)⟩
    rw [numbered, copied, earlier.table_eq known]

/-- An agent that two views show in two roles, and no view as alive. -/
theorem views_share_world_promoted :
    let before : List Deed :=
      [⟨0, .register "S0" .standby⟩, ⟨0, .view⟩, ⟨0, .role "S0" .primary⟩, ⟨1, .alive "S0" false⟩]
    let s := after (before ++ [⟨1, .view⟩])
    s.alive 0 = [] ∧ s.alive 2 = [] ∧ s.table 0 = ⟨[("S0", .primary)]⟩ ∧ s.table 2 = ⟨[("S0", .standby)]⟩ := by
  intro before s
  have proper : Proper (before ++ [⟨1, .view⟩]) := proper_of_forall (by decide)
  have ⟨shared, root, taken⟩ := views_share_world proper
  have ⟨_, copied⟩ := taken before 1 [] rfl
  exact ⟨(shared 0 (by decide)).1, (shared 2 (by decide)).1, root, copied⟩

end Views

end FleetCoordination
