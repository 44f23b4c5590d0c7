import FleetCoordination.ExecutedWindow
import FleetCoordination.Fault
import FleetCoordination.Reassignment
/-!
# The ledger of applied actions

Which proposals an agent has set out to apply, which of these failed, and the roles it
knows. An id is entered before its action is carried out, so that it is tried once.
Reassignments of roles are carried out by the ledger itself, all changes or none; other
actions are handed to the agent's executor.
-/
namespace FleetCoordination

structure Ledger where
  executed : ExecutedWindow
  failed : ExecutedWindow
  roles : RoleTable := {}

namespace Ledger

def ofCapacity (capacity : Nat) : Ledger :=
  { executed := ExecutedWindow.ofCapacity capacity, failed := ExecutedWindow.ofCapacity capacity }

/-- What becomes of an action that is to be applied. -/
inductive Opening
  /-- The id is in the ledger; what is known of its first application. -/
  | repeated (earlier : Except ExecutionFault Unit)
  | reassigned (changes : List RoleChange)
  | refused (cause : ExecutionFault)
  /-- The executor is to carry it out. -/
  | handed

/-- What is remembered of an id that has been entered before. -/
def earlier (l : Ledger) (id : ProposalId) : Except ExecutionFault Unit :=
  if l.failed.contains id then .error (.earlierFailure id) else .ok ()

def enter (l : Ledger) (id : ProposalId) : Ledger := { l with executed := (l.executed.insert id).1 }
def fail (l : Ledger) (id : ProposalId) : Ledger := { l with failed := (l.failed.insert id).1 }

/-- Sets the roles of a reassignment, or notes that it cannot be read. -/
def reassign (l : Ledger) (id : ProposalId) (params : Json) : Ledger × Opening :=
  match RoleReassignment.ofJson? params with
  | some r => ({ l with roles := Reassignment.reassign l.roles r.changes }, .reassigned r.changes)
  | none => (l.fail id, .refused .malformedRoles)

/-- Begins to apply an action. -/
def start (l : Ledger) (id : ProposalId) (action : String) (params : Json) : Ledger × Opening :=
  if l.executed.contains id then (l, .repeated (l.earlier id))
  else if action = RoleReassignment.action then (l.enter id).reassign id params
  else (l.enter id, .handed)

/-- Notes how the executor has ended. -/
def conclude (l : Ledger) (id : ProposalId) (ended : Except ExecutionFault Unit) : Ledger :=
  match ended with
  | .ok _ => l
  | .error _ => l.fail id

theorem start_of_contains {l : Ledger} {id : ProposalId} (h : l.executed.contains id = true) (action : String)
    (params : Json) : l.start id action params = (l, .repeated (l.earlier id)) := by simp [start, h]

theorem start_of_new {l : Ledger} {id : ProposalId} (h : l.executed.contains id = false) (action : String)
    (params : Json) :
    l.start id action params =
      if action = RoleReassignment.action then (l.enter id).reassign id params else (l.enter id, .handed) := by
  simp [start, h]

end Ledger

end FleetCoordination
