import FleetCoordination.Proofs.Engine.Books
import FleetCoordination.Proofs.ExecutedWindow
import FleetCoordination.Proofs.Proposal
/-!
# Commits of role changes

A reassignment of roles is applied by the engine itself. Either its content is read, and then every
change of it is made and announced in order, or none is and the id is marked failed.
-/
namespace FleetCoordination

namespace Reassignment

/-- The last of some changes that names an agent. -/
def lastChange? (changes : List RoleChange) (agent : AgentId) : Option RoleChange :=
  changes.reverse.find? fun c => c.agent = agent

/-- Of several changes of an agent the last one counts. -/
theorem get?_reassign_last (roles : RoleTable) (changes : List RoleChange) (agent : AgentId) :
    (reassign roles changes).get? agent = ((lastChange? changes agent).map (·.new)).or (roles.get? agent) := by
  induction changes generalizing roles with
  | nil => rfl
  | cons c rest ih =>
    have later : (reassign roles (c :: rest)).get? agent =
        ((lastChange? rest agent).map (·.new)).or ((roles.insert c.agent c.new).get? agent) := ih _
    rw [later, lastChange?, lastChange?, List.reverse_cons, List.find?_append, Table.get?_insert]
    cases rest.reverse.find? fun c => c.agent = agent with
    | some last => rfl
    | none =>
      by_cases own : agent = c.agent
      · simp [own]
      · simp [own, Ne.symm own]

end Reassignment

namespace Engine
variable {κ : Type}

def Output.event? : Output κ → Option Event
  | .announce event => some event
  | _ => none

def Output.returned? : Output κ → Option (κ × Except Fault Bool)
  | .applied caller result => some (caller, result)
  | _ => none

/-- The events announced in a list of outputs, in order. -/
def events (outputs : List (Output κ)) : List Event := outputs.filterMap Output.event?

/-- What direct applications are told in a list of outputs, in order. -/
def returns (outputs : List (Output κ)) : List (κ × Except Fault Bool) := outputs.filterMap Output.returned?

theorem events_announced (announced : List Event) (outputs : List (Output κ)) :
    events (announced.map .announce ++ outputs) = announced ++ events outputs := by
  induction announced with
  | nil => rfl
  | cons event announced ih => exact congrArg (event :: ·) ih

theorem returns_announced (announced : List Event) (outputs : List (Output κ)) :
    returns (announced.map .announce ++ outputs) = returns outputs := by
  induction announced with
  | nil => rfl
  | cons event announced ih => exact ih

/-! ## Settling an application -/

section Settle
variable (e : Engine κ) (c : Surroundings) (id : ProposalId) (purpose : Purpose κ) (result : Except Fault Bool)

theorem events_settle : events (e.settle c id purpose result).2 = [] := by
  cases purpose with
  | propagation =>
    simp only [settle]
    split
    · unfold closePropagation
      split <;> rfl
    · rfl
  | delivery sender =>
    simp only [settle, reply, publish]
    split <;> rfl
  | commit | approval | direct => rfl

theorem metrics_settle : (e.settle c id purpose result).1.metrics = e.metrics := by
  cases purpose with
  | propagation =>
    simp only [settle]
    split
    · unfold closePropagation
      split <;> rfl
    · rfl
  | commit | approval | delivery | direct => rfl

theorem ledger_settle : (e.settle c id purpose result).1.ledger = e.ledger :=
  congrArg Books.ledger (e.books_settle c id purpose result)

end Settle

/-! ## The two courses of a commit -/

/-- What is announced of a reassignment: each change, and then the commit. -/
def roleEvents (e : Engine κ) (c : Surroundings) (id : ProposalId) (changes : List RoleChange) : List Event :=
  changes.map (fun change => .roleReassigned change id (time c)) ++
    [.actionCommitted e.self id RoleReassignment.action (time c)]

/-- The engine once it has made the changes of a reassignment. -/
def withRoles (e : Engine κ) (id : ProposalId) (changes : List RoleChange) : Engine κ :=
  countCommit { e with ledger := { e.ledger.enter id with roles := Reassignment.reassign e.ledger.roles changes } }

/-- The engine once it has refused a reassignment. -/
def withFailure (e : Engine κ) (id : ProposalId) : Engine κ := { e with ledger := (e.ledger.enter id).fail id }

section Apply
variable {e : Engine κ} {id : ProposalId} {params : Json} (new : e.ledger.executed.contains id = false)
include new

theorem apply_of_read {r : RoleReassignment} (read : RoleReassignment.ofJson? params = some r) (c : Surroundings)
    (purpose : Purpose κ) : e.apply c id RoleReassignment.action params purpose =
      let s := (e.withRoles id r.changes).settle c id purpose (.ok true)
      (s.1, (e.roleEvents c id r.changes).map .announce ++ s.2) := by
  have self : ((e.withRoles id r.changes).settle c id purpose (.ok true)).1.self = e.self :=
    congrArg Books.self ((e.withRoles id r.changes).books_settle c id purpose _)
  simp only [apply, Ledger.start_of_new new, if_pos, Ledger.reassign, read]
  simp only [withRoles, Ledger.enter] at self ⊢
  simp [roleEvents, committed, self]

theorem apply_of_unread (unread : RoleReassignment.ofJson? params = none) (c : Surroundings) (purpose : Purpose κ) :
    e.apply c id RoleReassignment.action params purpose =
      (e.withFailure id).settle c id purpose (.error (.execution .malformedRoles)) := by
  simp only [apply, Ledger.start_of_new new, if_pos, Ledger.reassign, unread]
  rfl

end Apply

/-- Whether a step makes the changes of a reassignment, in their order, and announces them. -/
structure Reassigns (e : Engine κ) (c : Surroundings) (id : ProposalId) (changes : List RoleChange)
    (purpose : Purpose κ) (s : Step κ) : Prop where
  roles : ∀ a, s.1.ledger.roles.get? a =
    ((Reassignment.lastChange? changes a).map (·.new)).or (e.ledger.roles.get? a)
  events : events s.2 = changes.map (fun change => .roleReassigned change id (time c)) ++
    [.actionCommitted e.self id RoleReassignment.action (time c)]
  metrics : s.1.metrics = { e.metrics with commits := e.metrics.commits + 1 }
  executed : s.1.ledger.executed.contains id = true
  failed : s.1.ledger.failed = e.ledger.failed
  told : ∀ caller, purpose = .direct caller → returns s.2 = [(caller, .ok true)]

/-- Whether a step refuses a reassignment: its id is used up, and that is all. -/
structure Refuses (e : Engine κ) (id : ProposalId) (purpose : Purpose κ) (s : Step κ) : Prop where
  roles : s.1.ledger.roles = e.ledger.roles
  events : events s.2 = []
  metrics : s.1.metrics = e.metrics
  executed : s.1.ledger.executed.contains id = true
  failed : s.1.ledger.failed.contains id = true
  told : ∀ caller, purpose = .direct caller → returns s.2 = [(caller, .error (.execution .malformedRoles))]

section Courses
variable {e : Engine κ} {id : ProposalId} {params : Json} (executed : 1 ≤ e.ledger.executed.capacity)
  (new : e.ledger.executed.contains id = false)
include executed new

theorem reassigns_of_read {r : RoleReassignment} (read : RoleReassignment.ofJson? params = some r) (c : Surroundings)
    (purpose : Purpose κ) :
    Reassigns e c id r.changes purpose (e.apply c id RoleReassignment.action params purpose) := by
  rw [apply_of_read new read]
  refine ⟨fun a => ?_, ?_, ?_, ?_, ?_, ?_⟩
  · rw [ledger_settle]
    exact Reassignment.get?_reassign_last ..
  · rw [events_announced, events_settle, List.append_nil]
    rfl
  · rw [metrics_settle]
    rfl
  · rw [ledger_settle]
    exact ExecutedWindow.contains_insert executed id
  · rw [ledger_settle]
    rfl
  · rintro caller rfl
    rw [returns_announced]
    rfl

theorem refuses_of_unread (failed : 1 ≤ e.ledger.failed.capacity) (unread : RoleReassignment.ofJson? params = none)
    (c : Surroundings) (purpose : Purpose κ) :
    Refuses e id purpose (e.apply c id RoleReassignment.action params purpose) := by
  rw [apply_of_unread new unread]
  refine ⟨?_, events_settle .., ?_, ?_, ?_, ?_⟩
  · rw [ledger_settle]
    rfl
  · rw [metrics_settle]
    rfl
  · rw [ledger_settle]
    exact ExecutedWindow.contains_insert executed id
  · rw [ledger_settle]
    exact ExecutedWindow.contains_insert failed id
  · rintro caller rfl
    rfl

end Courses

/-- Whatever the content and whatever it is applied for, a reassignment under a new id is made as a
whole or refused as a whole; and one that was written as such is made. -/
theorem role_commit_atomic {e : Engine κ} {id : ProposalId} (executed : 1 ≤ e.ledger.executed.capacity)
    (failed : 1 ≤ e.ledger.failed.capacity) (new : e.ledger.executed.contains id = false) (c : Surroundings)
    (purpose : Purpose κ) :
    (∀ params, (∃ r, RoleReassignment.ofJson? params = some r ∧
          Reassigns e c id r.changes purpose (e.apply c id RoleReassignment.action params purpose)) ∨
        RoleReassignment.ofJson? params = none ∧
          Refuses e id purpose (e.apply c id RoleReassignment.action params purpose)) ∧
      ∀ r : RoleReassignment,
        Reassigns e c id r.changes purpose (e.apply c id RoleReassignment.action r.toJson purpose) := by
  refine ⟨fun params => ?_, fun r => reassigns_of_read executed new r.ofJson?_toJson c purpose⟩
  cases read : RoleReassignment.ofJson? params with
  | some r => exact .inl ⟨r, rfl, reassigns_of_read executed new read c purpose⟩
  | none => exact .inr ⟨rfl, refuses_of_unread executed new failed read c purpose⟩

/-- An agent is moved twice by one reassignment. -/
def relocation : RoleReassignment :=
  { changes := [⟨"A", none, .backup⟩, ⟨"B", none, .standby⟩, ⟨"A", some .backup, .primary⟩], reason := "" }

theorem role_commit_atomic_relocation :
    let e : Engine Unit := create "A" { dedupCapacity := 0 } true
    let c : Surroundings := { leadership := .fixed "A" none 0, alive := [] }
    e.ledger.executed.contains (.ofNat 1) = false ∧
      Reassigns e c (.ofNat 1) relocation.changes (.direct ())
        (e.apply c (.ofNat 1) RoleReassignment.action relocation.toJson (.direct ())) ∧
      Reassignment.lastChange? relocation.changes "A" = some ⟨"A", some .backup, .primary⟩ ∧
      Refuses e (.ofNat 1) (.direct ()) (e.apply c (.ofNat 1) RoleReassignment.action .null (.direct ())) := by
  intro e c
  have new : e.ledger.executed.contains (.ofNat 1) = false := by decide
  obtain ⟨read, written⟩ := role_commit_atomic (e := e) (by decide) (by decide) new c (.direct ())
  refine ⟨new, written relocation, rfl, ?_⟩
  obtain ⟨r, readable, -⟩ | ⟨-, refuses⟩ := read .null
  · cases readable
  · exact refuses

end Engine

end FleetCoordination
