import FleetCoordination.World
/-!
# Views of a registry

A view holds two references: to the cell of a world, which it shares with the view that it was
taken from, and to the cell of a role table, which is its own. What is done through a view is
done to the cells that it refers to.
-/
namespace FleetCoordination

structure View where
  world : Nat
  roles : Nat

/-- The cells, and the views that refer to them, the first registry first. -/
structure Views where
  worlds : List World := [{}]
  tables : List RoleTable := [{}]
  handles : List View := [⟨0, 0⟩]

namespace Views

/-- What may be done through a view. -/
inductive Operation
  | register (agent : AgentId) (given : Role)
  | alive (agent : AgentId) (present : Bool)
  | health (agent : AgentId) (state : Health)
  | risk (agent : AgentId) (score : Float)
  | link (a b : AgentId) (quality : Float)
  | defaultLink (quality : Option Float)
  | role (agent : AgentId) (given : Role)
  | view

namespace Operation

/-- What an operation makes of the world that its view refers to. -/
def onWorld (w : World) : Operation → World
  | register agent _ => w.register agent
  | alive agent present => w.setAlive agent present
  | health agent state => w.setHealth agent state
  | risk agent score => w.setRisk agent score
  | link a b quality => w.setLink a b quality
  | defaultLink quality => w.setDefaultQuality quality
  | role .. | view => w

/-- What an operation makes of the role table of its view. -/
def onRoles (t : RoleTable) : Operation → RoleTable
  | register agent given | role agent given => t.insert agent given
  | alive .. | health .. | risk .. | link .. | defaultLink .. | view => t

/-- The same change of a registry, made in the given view. -/
def change (seen : Nat) : Operation → Registry.Change
  | register agent given => .register seen agent given
  | alive agent present => .alive agent present
  | health agent state => .health agent state
  | risk agent score => .risk agent score
  | link a b quality => .link a b quality
  | defaultLink quality => .defaultLink quality
  | role agent given => .role seen agent given
  | view => .view seen

/-- An operation from its record, whose field `do` names it. -/
def ofJson? (j : Json) : Option Operation :=
  let agent := j.text "agent"
  match j.text "do" with
  | "register" => (Role.ofJson? (j.get "role")).map (register agent)
  | "alive" => some (alive agent (j.flag "alive" true))
  | "health" => (Health.ofJson? (j.get "health")).map (health agent)
  | "risk" => some (risk agent (j.real "risk"))
  | "role" => (Role.ofJson? (j.get "role")).map (role agent)
  | "link" => some (link (j.text "a") (j.text "b") (j.real "quality"))
  | "default_link" => some (defaultLink (j.float? "quality"))
  | "view" => some view
  | _ => none

end Operation

/-- A view beside another one: the same world, and a new cell with a copy of its role table. -/
def fork (s : Views) (v : View) : Views :=
  { s with
    tables := s.tables ++ [s.tables.getD v.roles {}]
    handles := s.handles ++ [{ v with roles := s.tables.length }] }

/-- Does an operation through a view. There is nothing to be done through a view that does not exist. -/
def apply (s : Views) (seen : Nat) (o : Operation) : Views :=
  match s.handles[seen]?, o with
  | none, _ => s
  | some v, .view => s.fork v
  | some v, o =>
    { s with worlds := s.worlds.modify v.world o.onWorld, tables := s.tables.modify v.roles o.onRoles }

/-! ## What a view shows -/

def world (s : Views) (seen : Nat) : World := ((s.handles[seen]?).bind fun v => s.worlds[v.world]?).getD {}

/-- All roles of a view. -/
def table (s : Views) (seen : Nat) : RoleTable := ((s.handles[seen]?).bind fun v => s.tables[v.roles]?).getD {}

def alive (s : Views) (seen : Nat) : List AgentId := (s.world seen).alive
def health? (s : Views) (seen : Nat) (agent : AgentId) : Option Health := (s.world seen).health? agent
def quality? (s : Views) (seen : Nat) (a b : AgentId) : Option Float := (s.world seen).quality? a b
def roleOf (s : Views) (seen : Nat) (agent : AgentId) : Option Role := (s.table seen).get? agent

end Views

/-- A change of a registry from its record, made in the given view. -/
def Registry.Change.ofJson? (seen : Nat) (j : Json) : Option Registry.Change :=
  (Views.Operation.ofJson? j).map (·.change seen)

end FleetCoordination
