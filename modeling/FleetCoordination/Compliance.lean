import FleetCoordination.Agent
import FleetCoordination.Scalar
import FleetCoordination.Table
/-!
# Compliance

How many propagations each agent was expected to acknowledge and how many it did.
-/
namespace FleetCoordination

structure AckCount where
  expected : Nat := 0
  acknowledged : Nat := 0
  deriving DecidableEq

def AckCount.rate {α : Type} [Scalar α] (c : AckCount) : α :=
  if c.expected = 0 then 1.0 else Scalar.ofNat c.acknowledged / Scalar.ofNat c.expected

structure ComplianceTracker where
  counts : Table AgentId AckCount := {}

namespace ComplianceTracker

def count (t : ComplianceTracker) (agent : AgentId) : AckCount := (t.counts.get? agent).getD {}

def record (t : ComplianceTracker) (agent : AgentId) (acknowledged : Bool) : ComplianceTracker :=
  let c := t.count agent
  ⟨t.counts.insert agent
    { expected := c.expected + 1
      acknowledged := if acknowledged then c.acknowledged + 1 else c.acknowledged }⟩

/-- The rate of an agent and the number of propagations behind it. -/
def compliance? (t : ComplianceTracker) (agent : AgentId) : Option (Float × Nat) :=
  (t.counts.get? agent).map fun c => (c.rate, c.expected)

/-- The rate of an agent beside its number of propagations; null for an unknown agent. -/
def toJson (t : ComplianceTracker) (agent : AgentId) : Json :=
  Json.ofOption (fun c => .array [.float c.1, .ofNat c.2]) (t.compliance? agent)

def reset (t : ComplianceTracker) (agent : AgentId) : ComplianceTracker := ⟨t.counts.erase agent⟩

end ComplianceTracker

end FleetCoordination
