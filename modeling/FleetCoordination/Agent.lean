import FleetCoordination.Json.Record
/-!
# Agents

An agent is known by its serial text and agents are ranked by the order of texts. Its
role in the fleet and its health are what its peers see of it.
-/
namespace FleetCoordination

abbrev AgentId := String

inductive Role
  | primary
  | backup
  | standby
  | safeMode
  deriving DecidableEq, Repr, Inhabited

namespace Role

def text : Role → String
  | primary => "PRIMARY"
  | backup => "BACKUP"
  | standby => "STANDBY"
  | safeMode => "SAFE_MODE"

def all : List Role := [primary, backup, standby, safeMode]

def ofText? (s : String) : Option Role := all.find? (·.text = s)

/-- One step up from safe mode to primary. -/
def promotion : Role → Option Role
  | safeMode => some standby
  | standby => some backup
  | backup => some primary
  | primary => none

def toJson (r : Role) : Json := .string r.text
def ofJson? (j : Json) : Option Role := j.enumName?.bind ofText?

@[simp] theorem ofText?_text (r : Role) : ofText? r.text = some r := by cases r <;> rfl

@[simp] theorem ofJson?_toJson (r : Role) : ofJson? r.toJson = some r := ofText?_text r

end Role

structure Health where
  risk : Float
  recurrence : Float
  deriving Inhabited

namespace Health

def nominal : Health := ⟨0.0, 0.0⟩

def toJson (h : Health) : Json :=
  .object [("risk_score", .float h.risk), ("recurrence_score", .float h.recurrence)]

def ofJson? : Json → Option Health :=
  Reading.run do
    let risk ← Reading.required "risk_score" Json.number?
    let recurrence ← Reading.required "recurrence_score" Json.number?
    pure ⟨risk, recurrence⟩

end Health

end FleetCoordination
