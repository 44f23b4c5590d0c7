import FleetCoordination.Agent
import FleetCoordination.Decimal.Fixed
import FleetCoordination.Metrics
import FleetCoordination.Proposal
import FleetCoordination.Scalar
/-!
# Safety simulation

The risk an action carries by itself, the share it passes on to the nearest neighbours,
and the verdict against a threshold.
-/
namespace FleetCoordination

/-- Links to the alive neighbours, best quality first and then by agent. -/
structure NeighborhoodOf (α : Type) where
  links : List (AgentId × α)

abbrev Neighborhood := NeighborhoodOf Float

namespace NeighborhoodOf
variable {α : Type} [Scalar α]

def precedes (a b : AgentId × α) : Bool :=
  match Scalar.order b.2 a.2 with
  | .lt => true
  | .gt => false
  | .eq => decide (a.1 ≤ b.1)

def ranked (links : List (AgentId × α)) : NeighborhoodOf α := ⟨links.mergeSort precedes⟩

omit [Scalar α] in
def nearest (n : NeighborhoodOf α) (k : Nat) : List AgentId := (n.links.take k).map (·.1)

omit [Scalar α] in
def size (n : NeighborhoodOf α) : Nat := n.links.length

end NeighborhoodOf

structure SafetyModelOf (α : Type) where
  threshold : α
  propagation : α
  maxNeighbors : Nat
  unknownRisk : α

abbrev SafetyModel := SafetyModelOf Float

/-- What an action does, with the parameter that its risk depends on if it is there and
numeric. -/
inductive Maneuver (α : Type)
  | attitude (angle : Option α)
  | loadShed (percent : Option α)
  | thermal (delta : Option α)
  | safeMode
  | reassignment
  | unknown

namespace Maneuver
variable {α : Type}

/-- Reads the numeric parameter of the known actions with `read`. -/
def of (read : Json → Option α) (action : String) (params : Json) : Maneuver α :=
  let parameter (name : String) := (params.field? name).bind read
  if action = "attitude_adjust" then attitude (parameter "angle_degrees")
  else if action = "load_shed" then loadShed (parameter "shed_percent")
  else if action = "thermal_maneuver" then thermal (parameter "delta_temp_c")
  else if action = "safe_mode" then safeMode
  else if action = RoleReassignment.action then reassignment
  else unknown

/-- The name of a required parameter that is not there. -/
def missing? : Maneuver α → Option String
  | attitude none => some "angle_degrees"
  | loadShed none => some "shed_percent"
  | thermal none => some "delta_temp_c"
  | _ => none

variable [Scalar α]

def attitudeRisk (angle : α) : α := Scalar.magnitude angle / 10.0 * 0.30

def loadShedRisk (percent : α) : α := if percent ≤ 15.0 then 0.0 else (percent - 15.0) / 100.0

def thermalRisk (delta : α) : α := if delta ≤ 5.0 then 0.0 else delta / 5.0 - 1.0

/-- The risk of the action alone; a missing parameter counts as full risk. -/
def baseRisk (unknownRisk : α) : Maneuver α → α
  | attitude (some angle) => attitudeRisk angle
  | loadShed (some percent) => loadShedRisk percent
  | thermal (some delta) => thermalRisk delta
  | safeMode => 0.0
  | reassignment => 0.05
  | unknown => unknownRisk
  | attitude none | loadShed none | thermal none => 1.0

end Maneuver

def missingParameterText (name : String) : String := s!"missing or non-numeric parameter '{name}'"

inductive BlockCause (α : Type)
  | missingParameter (name : String)
  | tooRisky (total threshold : α) (affected : Nat)

def BlockCause.message : BlockCause Float → String
  | missingParameter name => missingParameterText name
  | tooRisky total threshold affected =>
    s!"total risk {Decimal.fixed 4 total} exceeds threshold {Decimal.fixed 4 threshold} ({affected} neighbours affected)"

structure VerdictOf (α : Type) where
  safe : Bool
  base : α
  cascade : α
  total : α
  affected : List AgentId
  /-- Why the action is blocked, if it is not safe. -/
  cause : Option (BlockCause α)

abbrev Verdict := VerdictOf Float

/-- The verdict of a simulator that is switched off. -/
def VerdictOf.passThrough {α : Type} [Scalar α] : VerdictOf α := ⟨true, 0.0, 0.0, 0.0, [], none⟩

namespace Verdict

def reason? (v : Verdict) : Option String := v.cause.map BlockCause.message

def toJson (v : Verdict) : Json :=
  .object [("is_safe", .bool v.safe), ("base_risk", .float v.base), ("cascade_risk", .float v.cascade),
    ("total_risk", .float v.total), ("affected_peers", Json.strings v.affected),
    ("blocked_reason", Json.ofOption .string v.reason?)]

end Verdict

namespace SafetyModelOf
variable {α : Type} [Scalar α]

def assess (s : SafetyModelOf α) (maneuver : Maneuver α) (neighbors : NeighborhoodOf α) : VerdictOf α :=
  let base := maneuver.baseRisk s.unknownRisk
  let affected := neighbors.nearest s.maxNeighbors
  let cascade := base * s.propagation * Scalar.ofNat affected.length
  let total := base + cascade
  let safe := maneuver.missing?.isNone && total ≤ s.threshold
  let cause :=
    if safe then none
    else match maneuver.missing? with
      | some name => some (.missingParameter name)
      | none => some (.tooRisky total s.threshold affected.length)
  ⟨safe, base, cascade, total, affected, cause⟩

end SafetyModelOf

/-- A safety model that may be switched off, with its counts. -/
structure SafetySimulator where
  model : SafetyModel
  enabled : Bool := true
  metrics : SafetyMetrics := {}

namespace SafetySimulator

def count (m : SafetyMetrics) (v : Verdict) : SafetyMetrics :=
  { m with
    simulations := m.simulations + 1
    blocked := if v.cause.isSome then m.blocked + 1 else m.blocked
    lastTotalRisk := v.total
    latency := m.latency.record 0.0 }

def simulate (s : SafetySimulator) (action : String) (params : Json) (neighbors : Neighborhood) :
    SafetySimulator × Verdict :=
  if s.enabled then
    let v := s.model.assess (Maneuver.of Json.number? action params) neighbors
    ({ s with metrics := count s.metrics v }, v)
  else (s, VerdictOf.passThrough)

end SafetySimulator

end FleetCoordination
