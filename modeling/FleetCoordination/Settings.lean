import FleetCoordination.Policy
import FleetCoordination.Safety
import FleetCoordination.Table
/-!
# Settings

The sections of a node's configuration with their standard values.
-/
namespace FleetCoordination

structure NodeIdentity where
  id : AgentId
  plane : Option String := none
  tags : List String := []

structure Features where
  swarmEnabled : Bool := true
  forceLocal : Bool := false
  timeoutFallback : Bool := true

structure ElectionSettings where
  heartbeatMs : Nat := 1000
  leaseMs : Nat := 10000
  timeoutMinMs : Nat := 150
  timeoutMaxMs : Nat := 300

structure ConsensusSettings where
  quorumFraction : Float := 2.0 / 3.0
  /-- Fractions of single actions, by increasing action. -/
  actionQuorum : Table String Float := {}
  minAlivePeers : Nat := 1
  defaultTimeoutMs : Nat := 5000
  voteDeadlineMs : Nat := 200
  dedupCapacity : Nat := 4096
  criticalRisk : Float := 0.8

def ConsensusSettings.fractionFor (s : ConsensusSettings) (action : String) : Float :=
  (s.actionQuorum.get? action).getD s.quorumFraction

def SafetyModel.standard : SafetyModel :=
  { threshold := 0.10, propagation := 0.15, maxNeighbors := 8, unknownRisk := 0.5 }

structure ReassignmentSettings where
  intervalSecs : Nat := 30
  unhealthyRisk : Float := 0.3
  recoveryRisk : Float := 0.2
  recoveryWindowSecs : Nat := 90
  hysteresisWindowSecs : Nat := 300
  degradedThreshold : Nat := 3
  safeModeThreshold : Nat := 3
  complianceThreshold : Float := 0.90
  minPropagations : Nat := 5
  backupCapacity : Nat := 1
  proposalTimeoutMs : Nat := 5000

/-- Safe mode never comes before degradation. -/
def ReassignmentSettings.effectiveSafeMode (s : ReassignmentSettings) : Nat :=
  max s.safeModeThreshold s.degradedThreshold

structure OrchestrationSettings where
  swarmCompliance : Float := 0.90
  constellationCompliance : Float := 0.95
  propagationTimeoutMs : Nat := 2000

structure LoggingSettings where
  level : String := "info"
  format : String := "text"

structure ExporterSettings where
  enabled : Bool := false
  port : Nat := 9090

structure Observability where
  logging : LoggingSettings := {}
  exporter : ExporterSettings := {}

structure Settings where
  node : NodeIdentity
  features : Features := {}
  election : ElectionSettings := {}
  consensus : ConsensusSettings := {}
  weights : Weights := WeightsOf.standard
  safety : SafetyModel := SafetyModel.standard
  reassignment : ReassignmentSettings := {}
  orchestration : OrchestrationSettings := {}
  observability : Observability := {}

end FleetCoordination
