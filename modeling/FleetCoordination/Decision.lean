import FleetCoordination.Agent
import FleetCoordination.Scalar
import FleetCoordination.Timestamp
import FleetCoordination.Uuid
/-!
# Decisions

A decision asks for an action at a scope: on this agent alone, across the swarm, or
across the constellation.
-/
namespace FleetCoordination

inductive Scope
  | here
  | swarm
  | constellation
  deriving DecidableEq, Repr, Inhabited

namespace Scope

def text : Scope → String
  | here => "LOCAL"
  | swarm => "SWARM"
  | constellation => "CONSTELLATION"

def all : List Scope := [here, swarm, constellation]

/-- The scope a text names, whatever its case and surrounding blanks. -/
def parse? (s : String) : Option Scope :=
  let name := Text.upperAscii (Text.trim s)
  all.find? (·.text = name)

/-- An unknown text stands for this agent alone. -/
def parseLenient (s : String) : Scope := (parse? s).getD here

def invalidText (s : String) : String := "Invalid action scope '" ++ s ++ "'"

def toJson (s : Scope) : Json := .string s.text
def ofJson? (j : Json) : Option Scope := j.string?.map parseLenient

end Scope

structure Decision where
  id : Uuid
  action : String
  scope : Scope
  params : Json
  confidence : Float
  reasoning : String
  created : Timestamp
  deriving Inhabited

namespace Decision

def withConfidence (d : Decision) (confidence : Float) : Decision :=
  { d with confidence := Scalar.clamp 0.0 1.0 confidence }

def withReasoning (d : Decision) (reasoning : String) : Decision := { d with reasoning }

def toJson (d : Decision) : Json :=
  .object [("decision_id", d.id.toJson), ("action", .string d.action), ("scope", d.scope.toJson),
    ("params", d.params), ("confidence", .float d.confidence), ("reasoning", .string d.reasoning),
    ("created_at", d.created.toJson)]

def ofJson? : Json → Option Decision :=
  Reading.run do
    let id ← Reading.required "decision_id" Uuid.ofJson?
    let action ← Reading.required "action" Json.string?
    let scope ← Reading.required "scope" Scope.ofJson?
    let params ← Reading.withDefault "params" .null some
    let confidence ← Reading.required "confidence" Json.number?
    let reasoning ← Reading.withDefault "reasoning" "" Json.string?
    let created ← Reading.required "created_at" Timestamp.ofJson?
    pure { id, action, scope, params, confidence, reasoning, created }

end Decision

end FleetCoordination
