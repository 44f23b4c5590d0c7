/-!
# Sample manifests

The files a new node may start from, line by line.
-/
namespace FleetCoordination.Manifest

/-- The least there can be. -/
def minimalLines : List String := [
  "apiVersion: constellation/v1",
  "kind: CoordinationConfig",
  "metadata:",
  "  name: constellation-node",
  "spec:",
  "  node:",
  "    id: SAT-001"]

/-- Every section, with what it is for. -/
def exampleLines : List String := [
  "# Constellation coordination node configuration.",
  "# Every section under `spec` is optional; omitted fields take the defaults",
  "# shown here.",
  "apiVersion: constellation/v1",
  "kind: CoordinationConfig",
  "metadata:",
  "  name: constellation-node",
  "  version: \"1.0.0\"",
  "  labels:",
  "    plane: leo-a",
  "",
  "spec:",
  "  node:",
  "    # Satellite serial, used as the agent identifier on the bus.",
  "    id: SAT-001",
  "    plane: leo-a",
  "    tags: [imaging]",
  "",
  "  features:",
  "    # false routes every decision down the LOCAL path.",
  "    swarm_enabled: true",
  "    # Kill-switch: force LOCAL even when swarm mode is on.",
  "    force_local: false",
  "    # Leader applies its own intent when a proposal times out without quorum.",
  "    timeout_fallback: true",
  "",
  "  election:",
  "    heartbeat_interval_ms: 1000",
  "    lease_ms: 10000",
  "    election_timeout_min_ms: 150",
  "    election_timeout_max_ms: 300",
  "",
  "  consensus:",
  "    quorum_fraction: 0.6667",
  "    action_quorum:",
  "      attitude_trim: 0.5",
  "    min_alive_peers: 1",
  "    default_timeout_ms: 5000",
  "    vote_deadline_ms: 200",
  "    dedup_capacity: 4096",
  "    # Agents at or above this local risk deny every proposal.",
  "    critical_risk_threshold: 0.8",
  "",
  "  arbiter:",
  "    weights:",
  "      safety: 0.7",
  "      performance: 0.2",
  "      availability: 0.1",
  "",
  "  safety:",
  "    # Actions whose total risk exceeds this are blocked at CONSTELLATION scope.",
  "    risk_threshold: 0.10",
  "    propagation_factor: 0.15",
  "    max_neighbors: 8",
  "    unknown_action_risk: 0.5",
  "",
  "  reassignment:",
  "    interval_secs: 30",
  "    unhealthy_risk_threshold: 0.3",
  "    recovery_risk_threshold: 0.2",
  "    recovery_window_secs: 90",
  "    hysteresis_window_secs: 300",
  "    degraded_threshold: 3",
  "    safe_mode_threshold: 3",
  "    compliance_threshold: 0.90",
  "    min_propagations: 5",
  "    backup_capacity: 1",
  "    proposal_timeout_ms: 5000",
  "",
  "  orchestrator:",
  "    swarm_compliance: 0.90",
  "    constellation_compliance: 0.95",
  "    propagation_timeout_ms: 2000",
  "",
  "  observability:",
  "    logging:",
  "      level: info",
  "      # text or json",
  "      format: text",
  "    metrics:",
  "      enabled: false",
  "      port: 9090"]

def sampleText (examples : Bool) : String :=
  String.join ((if examples then exampleLines else minimalLines).map (· ++ "\n"))

end FleetCoordination.Manifest
