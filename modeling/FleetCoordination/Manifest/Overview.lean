import FleetCoordination.Decimal.Fixed
import FleetCoordination.Manifest
/-!
# Overviews

The settings of a manifest as lines for a reader.
-/
namespace FleetCoordination.Manifest

def onOff (flag : Bool) : String := if flag then "on" else "off"

/-- A value with two places. -/
def brief (x : Float) : String := Decimal.fixed 2 x

def nodeLines (n : NodeIdentity) : List String :=
  ["Node Identity:", s!"  ID: {n.id}"] ++ (n.plane.map fun p => s!"  Plane: {p}").toList ++
    (if n.tags.isEmpty then [] else ["  Tags: " ++ ", ".intercalate n.tags])

def featureLines (f : Features) : List String :=
  ["Features:", "  Swarm mode: " ++ onOff f.swarmEnabled, "  Force local: " ++ onOff f.forceLocal,
    "  Timeout fallback: " ++ onOff f.timeoutFallback]

def electionLines (s : ElectionSettings) : List String :=
  ["Leader Election:", s!"  Heartbeat: {s.heartbeatMs} ms, lease {s.leaseMs} ms",
    s!"  Election timeout: {s.timeoutMinMs}-{s.timeoutMaxMs} ms"]

def consensusLines (s : ConsensusSettings) : List String :=
  ["Consensus:", "  Quorum fraction: " ++ Decimal.fixed 4 s.quorumFraction] ++
    (s.actionQuorum.entries.map fun e => "    " ++ e.1 ++ " → " ++ Decimal.fixed 4 e.2) ++
    [s!"  Minimum alive peers: {s.minAlivePeers}",
      s!"  Proposal timeout: {s.defaultTimeoutMs} ms, vote deadline {s.voteDeadlineMs} ms",
      "  Critical risk: " ++ brief s.criticalRisk]

def weightLines (w : Weights) : List String :=
  ["Policy Arbiter:",
    s!"  Weights: safety {brief w.safety}, performance {brief w.performance}, availability {brief w.availability}"]

def safetyLines (m : SafetyModel) : List String :=
  ["Safety Simulator:",
    s!"  Risk threshold: {brief m.threshold}, propagation factor {brief m.propagation}, max neighbours {m.maxNeighbors}"]

def reassignmentLines (s : ReassignmentSettings) : List String :=
  ["Role Reassignment:", s!"  Interval: {s.intervalSecs} s, hysteresis {s.hysteresisWindowSecs} s",
    s!"  Unhealthy risk ≥ {brief s.unhealthyRisk}, recovery < {brief s.recoveryRisk} for {s.recoveryWindowSecs} s",
    s!"  Failover after {s.degradedThreshold} samples, safe mode after {s.safeModeThreshold}",
    s!"  Compliance demotion below {brief s.complianceThreshold} over {s.minPropagations} propagations"]

def orchestrationLines (s : OrchestrationSettings) : List String :=
  ["Orchestrator:",
    s!"  Compliance: swarm {brief s.swarmCompliance}, constellation {brief s.constellationCompliance}"]

def observabilityLines (o : Observability) : List String :=
  ["Observability:", s!"  Logging: {o.logging.level} ({o.logging.format})",
    if o.exporter.enabled then s!"  Metrics: enabled on port {o.exporter.port}" else "  Metrics: disabled"]

/-- Every section, with an empty line between two of them. -/
def overview (m : Manifest) : List String :=
  let s := m.settings
  [["Current configuration:"], nodeLines s.node, featureLines s.features, electionLines s.election,
    consensusLines s.consensus, weightLines s.weights, safetyLines s.safety, reassignmentLines s.reassignment,
    orchestrationLines s.orchestration, observabilityLines s.observability].intersperse [""] |>.flatten

/-- The places where a manifest is looked for. -/
def pathLines (flag fromEnvironment : Option String) : List String :=
  ["Configuration discovery paths:", "  1. --config flag: " ++ flag.getD "(not set)",
    "  2. CONSTELLATION_CONFIG_PATH: " ++ fromEnvironment.getD "(not set)", "  3. ./constellation-config.yaml",
    "  4. ~/.constellation/config.yaml", "  5. /etc/constellation/config.yaml", ""]

end FleetCoordination.Manifest
