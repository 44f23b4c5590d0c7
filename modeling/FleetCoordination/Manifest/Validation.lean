import FleetCoordination.Decimal.Fixed
import FleetCoordination.Decimal.Shortest
import FleetCoordination.Manifest
import FleetCoordination.Text.Blank
/-!
# Valid manifests

The rules a manifest must keep, in the order in which they are checked. `fault?` gives
the first one it breaks.
-/
namespace FleetCoordination.Manifest

inductive Fault
  | apiVersion (found : String)
  | kind (found : String)
  | unnamed
  | noNode
  | timeoutRange (low high : Nat)
  | heartbeat (interval lease : Nat)
  /-- A share that is not above zero and at most one. -/
  | fraction (field : String) (found : Float)
  | noPeers
  | noCapacity
  | weights (cause : WeightsError Float)
  /-- A risk that is not between zero and one. -/
  | risk (field : String) (found : Float)
  | riskOrder (recovery unhealthy : Float)
  | noSamples
  | sampleOrder (safeMode degraded : Nat)
  | noInterval
  | logFormat (found : String)

def Fault.message : Fault → String
  | apiVersion found => s!"Invalid apiVersion: '{found}'. Must be '{apiVersionText}'"
  | kind found => s!"Invalid kind: '{found}'. Must be '{kindText}'"
  | unnamed => "metadata.name cannot be empty"
  | noNode => "spec.node.id cannot be empty"
  | timeoutRange low high => s!"spec.election timeout range is invalid: [{low}, {high}] ms"
  | heartbeat interval lease =>
    s!"spec.election.heartbeat_interval_ms ({interval}) must be positive and below lease_ms ({lease})"
  | fraction field found => s!"{field} must be within (0, 1], got {Decimal.plain found}"
  | noPeers => "spec.consensus.min_alive_peers must be at least 1"
  | noCapacity => "spec.consensus.dedup_capacity must be at least 1"
  | weights cause => s!"spec.arbiter.weights: {cause.message}"
  | risk field found => s!"{field} must be within [0, 1], got {Decimal.plain found}"
  | riskOrder recovery unhealthy =>
    s!"spec.reassignment.recovery_risk_threshold ({Decimal.plain recovery}) must not exceed unhealthy_risk_threshold ({Decimal.plain unhealthy})"
  | noSamples => "spec.reassignment consecutive thresholds must be at least 1"
  | sampleOrder safeMode degraded =>
    s!"spec.reassignment.safe_mode_threshold ({safeMode}) must not be below degraded_threshold ({degraded})"
  | noInterval => "spec.reassignment.interval_secs must be positive"
  | logFormat found => s!"spec.observability.logging.format must be 'text' or 'json', got '{found}'"

/-- The fault `f` unless `holds`. -/
def demand (holds : Bool) (f : Fault) : Option Fault := if holds then none else some f

def fractionFault? (field : String) (x : Float) : Option Fault :=
  demand (decide (0.0 < x) && decide (x ≤ 1.0)) (.fraction field x)

def riskFault? (field : String) (x : Float) : Option Fault := demand (Scalar.inUnit x) (.risk field x)

def electionFault? (s : ElectionSettings) : Option Fault :=
  demand (0 < s.timeoutMinMs && s.timeoutMinMs ≤ s.timeoutMaxMs) (.timeoutRange s.timeoutMinMs s.timeoutMaxMs) <|>
  demand (0 < s.heartbeatMs && s.heartbeatMs < s.leaseMs) (.heartbeat s.heartbeatMs s.leaseMs)

def consensusFault? (s : ConsensusSettings) : Option Fault :=
  fractionFault? "spec.consensus.quorum_fraction" s.quorumFraction <|>
  (s.actionQuorum.entries.findSome? fun e => fractionFault? ("spec.consensus.action_quorum." ++ e.1) e.2) <|>
  demand (0 < s.minAlivePeers) .noPeers <|>
  demand (0 < s.dedupCapacity) .noCapacity

def safetyFault? (m : SafetyModel) : Option Fault :=
  riskFault? "spec.safety.risk_threshold" m.threshold <|>
  riskFault? "spec.safety.propagation_factor" m.propagation <|>
  riskFault? "spec.safety.unknown_action_risk" m.unknownRisk

def reassignmentFault? (s : ReassignmentSettings) : Option Fault :=
  riskFault? "spec.reassignment.unhealthy_risk_threshold" s.unhealthyRisk <|>
  riskFault? "spec.reassignment.recovery_risk_threshold" s.recoveryRisk <|>
  demand (!decide (s.unhealthyRisk < s.recoveryRisk)) (.riskOrder s.recoveryRisk s.unhealthyRisk) <|>
  demand (0 < s.degradedThreshold && 0 < s.safeModeThreshold) .noSamples <|>
  demand (s.degradedThreshold ≤ s.safeModeThreshold) (.sampleOrder s.safeModeThreshold s.degradedThreshold) <|>
  demand (0 < s.intervalSecs) .noInterval <|>
  fractionFault? "spec.reassignment.compliance_threshold" s.complianceThreshold

def orchestrationFault? (s : OrchestrationSettings) : Option Fault :=
  fractionFault? "spec.orchestrator.swarm_compliance" s.swarmCompliance <|>
  fractionFault? "spec.orchestrator.constellation_compliance" s.constellationCompliance

def settingsFault? (s : Settings) : Option Fault :=
  demand (!(Text.trim s.node.id).isEmpty) .noNode <|>
  electionFault? s.election <|>
  consensusFault? s.consensus <|>
  s.weights.fault?.map .weights <|>
  safetyFault? s.safety <|>
  reassignmentFault? s.reassignment <|>
  orchestrationFault? s.orchestration <|>
  demand (s.observability.logging.format ∈ ["text", "json"]) (.logFormat s.observability.logging.format)

/-- The first rule a manifest breaks; nothing if it is valid. -/
def fault? (m : Manifest) : Option Fault :=
  demand (m.apiVersion = apiVersionText) (.apiVersion m.apiVersion) <|>
  demand (m.kind = kindText) (.kind m.kind) <|>
  demand (!m.name.isEmpty) .unnamed <|>
  settingsFault? m.settings

end FleetCoordination.Manifest
