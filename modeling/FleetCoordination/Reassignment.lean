import FleetCoordination.Compliance
import FleetCoordination.Decimal.Fixed
import FleetCoordination.Fault
import FleetCoordination.HealthHistory
import FleetCoordination.Settings
import FleetCoordination.Word
import FleetCoordination.World
/-!
# Reassignment

What moves a role from one agent to another, and what the leader remembers of its peers
from one evaluation to the next.
-/
namespace FleetCoordination.Reassignment

inductive Trigger
  | failover
  | demotion
  | safeMode
  | recovery
  deriving DecidableEq, Repr

def Trigger.text : Trigger → String
  | failover => "primary_failover"
  | demotion => "compliance_demotion"
  | safeMode => "safe_mode"
  | recovery => "recovery"

/-- A set of role changes that stand or fall together. -/
structure Plan where
  trigger : Trigger
  changes : List RoleChange
  reason : String
  deriving DecidableEq

namespace Plan

def agents (p : Plan) : List AgentId := p.changes.map (·.agent)

def content (p : Plan) : RoleReassignment := { changes := p.changes, reason := p.reason }

end Plan

/-- The roles after some changes, made in order. -/
def reassign (roles : RoleTable) (changes : List RoleChange) : RoleTable :=
  changes.foldl (fun t c => t.insert c.agent c.new) roles

/-! ## Windows of time -/

/-- A count of seconds as a span in nanoseconds. Counts are taken as signed 64-bit words,
and a span holds as many milliseconds as such a word. -/
def span? (seconds : Nat) : Option Int :=
  let signed := Int.bmod seconds (Word.count 64)
  if signed.natAbs ≤ Word.last 63 / 1000 then some (signed * 1000000000) else none

/-- In nanoseconds. -/
structure Windows where
  /-- How long an agent that was named in a plan is left alone. -/
  hysteresis : Int
  /-- How long an agent must have been well before it moves up. -/
  recovery : Int

/-- Settings with a window too long for a span have none. -/
def Windows.of? (s : ReassignmentSettings) : Option Windows := do
  let hysteresis ← span? s.hysteresisWindowSecs
  let recovery ← span? s.recoveryWindowSecs
  some { hysteresis, recovery }

/-! ## Memory -/

structure Memory where
  histories : Table AgentId HealthHistory := {}
  /-- When an agent was last named in a plan. -/
  named : Table AgentId Timestamp := {}

def thresholds (s : ReassignmentSettings) : HealthThresholds :=
  { unhealthy := s.unhealthyRisk, recovery := s.recoveryRisk, degraded := s.degradedThreshold }

namespace Memory

/-- Forgets the agents that are gone and the marks whose window has passed. -/
def prune (m : Memory) (alive : List AgentId) (now : Timestamp) (hysteresis : Int) : Memory :=
  { histories := m.histories.filter fun a _ => decide (a ∈ alive)
    named := m.named.filter fun _ t => decide (now.since t < hysteresis) }

/-- Adds a sample and tells the history it makes. -/
def observe (m : Memory) (s : ReassignmentSettings) (agent : AgentId) (risk : Float) (now : Timestamp) :
    Memory × HealthHistory :=
  let history := ((m.histories.get? agent).getD { thresholds := thresholds s }).record risk now
  ({ m with histories := m.histories.insert agent history }, history)

def mark (m : Memory) (agents : List AgentId) (now : Timestamp) : Memory :=
  { m with named := agents.foldl (fun t a => t.insert a now) m.named }

end Memory

end FleetCoordination.Reassignment
