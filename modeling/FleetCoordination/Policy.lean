import FleetCoordination.Agent
import FleetCoordination.Decimal.Fixed
import FleetCoordination.Decimal.Shortest
import FleetCoordination.Scalar
import FleetCoordination.Text.Sorted
import FleetCoordination.Timestamp
/-!
# Policies

A policy proposes an action with a priority, a scope and a score in the unit interval.
Weights turn scores into comparable numbers; a safety context lists the hard
constraints in force.
-/
namespace FleetCoordination

inductive Priority
  | safety
  | performance
  | availability
  deriving DecidableEq, Repr, Inhabited

namespace Priority

def text : Priority → String
  | safety => "SAFETY"
  | performance => "PERFORMANCE"
  | availability => "AVAILABILITY"

/-- The spelling used inside sentences. -/
def name : Priority → String
  | safety => "Safety"
  | performance => "Performance"
  | availability => "Availability"

def all : List Priority := [safety, performance, availability]
def ofJson? (j : Json) : Option Priority := j.enumName?.bind fun s => all.find? (·.text = s)

end Priority

inductive PolicyScope
  | here
  | swarm
  deriving DecidableEq, Repr, Inhabited

namespace PolicyScope

def text : PolicyScope → String
  | here => "LOCAL"
  | swarm => "SWARM"

def all : List PolicyScope := [here, swarm]
def ofJson? (j : Json) : Option PolicyScope := j.enumName?.bind fun s => all.find? (·.text = s)

end PolicyScope

/-- A policy with its score read as a scalar. -/
structure PolicyOf (α : Type) where
  action : String
  parameters : Json
  priority : Priority
  scope : PolicyScope
  score : α
  agent : AgentId
  time : Timestamp
  deriving Inhabited

abbrev Policy := PolicyOf Float

inductive PolicyError
  | malformed
  | scoreOutOfRange (score : Float)

namespace PolicyError

def kind : PolicyError → String
  | malformed => "malformed"
  | scoreOutOfRange _ => "score_out_of_range"

def message : PolicyError → String
  | malformed => ""
  | scoreOutOfRange score => "Policy score must be within [0, 1], got " ++ Decimal.plain score

end PolicyError

namespace Policy

def create (action : String) (parameters : Json) (priority : Priority) (scope : PolicyScope)
    (score : Float) (agent : AgentId) (time : Timestamp) : Except PolicyError Policy :=
  if Scalar.inUnit score then .ok { action, parameters, priority, scope, score, agent, time }
  else .error (.scoreOutOfRange score)

def toJson (p : Policy) : Json :=
  .object [("action", .string p.action), ("parameters", p.parameters), ("priority", .string p.priority.text),
    ("scope", .string p.scope.text), ("score", .float p.score), ("agent_id", .string p.agent),
    ("timestamp", p.time.toJson)]

def read? : Json → Option Policy :=
  Reading.run do
    let action ← Reading.required "action" Json.string?
    let parameters ← Reading.withDefault "parameters" .null some
    let priority ← Reading.required "priority" Priority.ofJson?
    let scope ← Reading.required "scope" PolicyScope.ofJson?
    let score ← Reading.required "score" Json.number?
    let agent ← Reading.required "agent_id" Json.string?
    let time ← Reading.required "timestamp" Timestamp.ofJson?
    pure { action, parameters, priority, scope, score, agent, time }

/-- Reads a policy record. A value that is no object counts as an empty record. -/
def ofJson (j : Json) : Except PolicyError Policy :=
  match j with
  | .object _ =>
    match read? j with
    | some p => if Scalar.inUnit p.score then .ok p else .error (.scoreOutOfRange p.score)
    | none => .error .malformed
  | _ => .error .malformed

end Policy

structure WeightsOf (α : Type) where
  safety : α
  performance : α
  availability : α

abbrev Weights := WeightsOf Float

inductive WeightsError (α : Type)
  | outOfRange (priority : Priority) (value : α)
  | invalidSum (sum : α)

namespace WeightsError

def kind {α : Type} : WeightsError α → String
  | outOfRange .. => "out_of_range"
  | invalidSum _ => "invalid_sum"

def message : WeightsError Float → String
  | outOfRange p v => "Policy weight for " ++ p.name ++ " must be between 0.0 and 1.0, got " ++ Decimal.plain v
  | invalidSum s => "Policy weights must sum to 1.0, got " ++ Decimal.fixed 4 s

end WeightsError

namespace WeightsOf
variable {α : Type} [Scalar α]

def standard : WeightsOf α := ⟨0.7, 0.2, 0.1⟩

def weight (w : WeightsOf α) : Priority → α
  | .safety => w.safety
  | .performance => w.performance
  | .availability => w.availability

def total (w : WeightsOf α) : α := w.safety + w.performance + w.availability

/-- The first fault of the weights: one outside the unit interval, else a sum away from
one by more than a millionth. -/
def fault? (w : WeightsOf α) : Option (WeightsError α) :=
  match Priority.all.find? fun p => !Scalar.inUnit (w.weight p) with
  | some p => some (.outOfRange p (w.weight p))
  | none => if 1e-6 < Scalar.magnitude (w.total - 1.0) then some (.invalidSum w.total) else none

end WeightsOf

namespace Weights

def toJson (w : Weights) : Json :=
  .object [("safety", .float w.safety), ("performance", .float w.performance),
    ("availability", .float w.availability)]

end Weights

structure SafetyContext where
  battery : Option Float := none
  critical : Float := 0.2
  /-- Named constraints in increasing order, each once. -/
  constraints : List String := []

namespace SafetyContext

def withBattery (c : SafetyContext) (level : Float) : SafetyContext := { c with battery := some level }

def withConstraint (c : SafetyContext) (name : String) : SafetyContext :=
  { c with constraints := Text.sorted (name :: c.constraints) }

def batteryCritical (c : SafetyContext) : Bool :=
  match c.battery with
  | some level => decide (level < c.critical)
  | none => false

/-- The constraints in force: the named ones, then a critical battery. -/
def active (c : SafetyContext) : List String :=
  c.constraints ++ if c.batteryCritical then ["battery_critical"] else []

def toJson (c : SafetyContext) : Json :=
  .object [("battery_level", Json.ofOption .float c.battery), ("battery_critical_threshold", .float c.critical),
    ("active_constraints", Json.strings c.constraints)]

def ofJson? : Json → Option SafetyContext :=
  Reading.run do
    let battery ← Reading.optional "battery_level" Json.number?
    let critical ← Reading.required "battery_critical_threshold" Json.number?
    let names ← Reading.withDefault "active_constraints" [] (Reading.list? Json.string?)
    pure { battery, critical, constraints := Text.sorted names }

/-- A context that may be left out. -/
def orStandard? : Json → Option SafetyContext
  | .null => some {}
  | j => ofJson? j

end SafetyContext

end FleetCoordination
