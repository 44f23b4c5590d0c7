import FleetCoordination.Agent
import FleetCoordination.Json.Access
import FleetCoordination.Safety
import FleetCoordination.Table
/-!
# The world and its views

The world is what all agents see alike: who is alive, how healthy, and how good the
links are. Roles are not part of it: every view of a registry keeps a role table of
its own.
-/
namespace FleetCoordination

structure Peer where
  alive : Bool
  health : Health

abbrev RoleTable := Table AgentId Role

structure World where
  peers : Table AgentId Peer := {}
  /-- Both directions of every listed link. -/
  links : List ((AgentId × AgentId) × Float) := []
  /-- Quality of the pairs that are not listed. -/
  defaultQuality : Option Float := some 1.0

namespace World

def register (w : World) (agent : AgentId) : World :=
  { w with peers := w.peers.insert agent ⟨true, Health.nominal⟩ }

def setAlive (w : World) (agent : AgentId) (alive : Bool) : World :=
  { w with peers := w.peers.modify agent fun p => { p with alive } }

def setHealth (w : World) (agent : AgentId) (health : Health) : World :=
  { w with peers := w.peers.modify agent fun p => { p with health } }

def setRisk (w : World) (agent : AgentId) (risk : Float) : World :=
  { w with peers := w.peers.modify agent fun p => { p with health := { p.health with risk } } }

def setLink (w : World) (a b : AgentId) (quality : Float) : World :=
  { w with links := ((a, b), quality) :: ((b, a), quality) :: w.links.filter fun l => l.1 ≠ (a, b) ∧ l.1 ≠ (b, a) }

def setDefaultQuality (w : World) (quality : Option Float) : World := { w with defaultQuality := quality }

/-- Alive agents in increasing order, each once. -/
def alive (w : World) : List AgentId := (w.peers.filter fun _ p => p.alive).keys

def health? (w : World) (agent : AgentId) : Option Health := (w.peers.get? agent).map (·.health)

def quality? (w : World) (a b : AgentId) : Option Float :=
  if a = b ∨ !w.peers.contains a ∨ !w.peers.contains b then none
  else (w.links.lookup (a, b)).or w.defaultQuality

/-- The alive agents with a link to `agent`. -/
def neighborhood (w : World) (agent : AgentId) : Neighborhood :=
  NeighborhoodOf.ranked <| w.alive.filterMap fun peer =>
    if peer = agent then none else (w.quality? agent peer).map (peer, ·)

end World

/-- One world with the role tables of all views, view 0 first. -/
structure Registry where
  world : World := {}
  tables : List RoleTable := [{}]

namespace Registry

inductive Change
  | register (view : Nat) (agent : AgentId) (role : Role)
  | alive (agent : AgentId) (alive : Bool)
  | health (agent : AgentId) (health : Health)
  | risk (agent : AgentId) (risk : Float)
  | role (view : Nat) (agent : AgentId) (role : Role)
  | link (a b : AgentId) (quality : Float)
  | defaultLink (quality : Option Float)
  | view (source : Nat)

def table (r : Registry) (view : Nat) : RoleTable := r.tables.getD view {}

def roleOf (r : Registry) (view : Nat) (agent : AgentId) : Option Role := (r.table view).get? agent

def setRole (r : Registry) (view : Nat) (agent : AgentId) (role : Role) : Registry :=
  { r with tables := r.tables.modify view fun t => t.insert agent role }

/-- A new view starts with a copy of the role table it is taken from. -/
def addView (r : Registry) (source : Nat) : Registry := { r with tables := r.tables ++ [r.table source] }

def apply (r : Registry) : Change → Registry
  | .register view agent role => setRole { r with world := r.world.register agent } view agent role
  | .alive agent alive => { r with world := r.world.setAlive agent alive }
  | .health agent health => { r with world := r.world.setHealth agent health }
  | .risk agent risk => { r with world := r.world.setRisk agent risk }
  | .role view agent role => r.setRole view agent role
  | .link a b quality => { r with world := r.world.setLink a b quality }
  | .defaultLink quality => { r with world := r.world.setDefaultQuality quality }
  | .view source => r.addView source

end Registry

end FleetCoordination
