import FleetCoordination.Manifest
/-!
# Writing manifests

A manifest as a JSON value with every section spelled out. Names that are not set are
left out.
-/
namespace FleetCoordination

def NodeIdentity.toJson (n : NodeIdentity) : Json :=
  .object ([("id", .string n.id)] ++ (n.plane.map fun p => ("plane", .string p)).toList ++ [("tags", Json.strings n.tags)])

def Features.toJson (f : Features) : Json :=
  .object [("swarm_enabled", .bool f.swarmEnabled), ("force_local", .bool f.forceLocal),
    ("timeout_fallback", .bool f.timeoutFallback)]

def ElectionSettings.toJson (s : ElectionSettings) : Json :=
  .object [("heartbeat_interval_ms", .ofNat s.heartbeatMs), ("lease_ms", .ofNat s.leaseMs),
    ("election_timeout_min_ms", .ofNat s.timeoutMinMs), ("election_timeout_max_ms", .ofNat s.timeoutMaxMs)]

def ConsensusSettings.toJson (s : ConsensusSettings) : Json :=
  .object [("quorum_fraction", .float s.quorumFraction),
    ("action_quorum", .object (s.actionQuorum.entries.map fun e => (e.1, .float e.2))),
    ("min_alive_peers", .ofNat s.minAlivePeers), ("default_timeout_ms", .ofNat s.defaultTimeoutMs),
    ("vote_deadline_ms", .ofNat s.voteDeadlineMs), ("dedup_capacity", .ofNat s.dedupCapacity),
    ("critical_risk_threshold", .float s.criticalRisk)]

def SafetyModel.toJson (m : SafetyModel) : Json :=
  .object [("risk_threshold", .float m.threshold), ("propagation_factor", .float m.propagation),
    ("max_neighbors", .ofNat m.maxNeighbors), ("unknown_action_risk", .float m.unknownRisk)]

def ReassignmentSettings.toJson (s : ReassignmentSettings) : Json :=
  .object [("interval_secs", .ofNat s.intervalSecs), ("unhealthy_risk_threshold", .float s.unhealthyRisk),
    ("recovery_risk_threshold", .float s.recoveryRisk), ("recovery_window_secs", .ofNat s.recoveryWindowSecs),
    ("hysteresis_window_secs", .ofNat s.hysteresisWindowSecs), ("degraded_threshold", .ofNat s.degradedThreshold),
    ("safe_mode_threshold", .ofNat s.safeModeThreshold), ("compliance_threshold", .float s.complianceThreshold),
    ("min_propagations", .ofNat s.minPropagations), ("backup_capacity", .ofNat s.backupCapacity),
    ("proposal_timeout_ms", .ofNat s.proposalTimeoutMs)]

def OrchestrationSettings.toJson (s : OrchestrationSettings) : Json :=
  .object [("swarm_compliance", .float s.swarmCompliance), ("constellation_compliance", .float s.constellationCompliance),
    ("propagation_timeout_ms", .ofNat s.propagationTimeoutMs)]

def Observability.toJson (o : Observability) : Json :=
  .object [("logging", .object [("level", .string o.logging.level), ("format", .string o.logging.format)]),
    ("metrics", .object [("enabled", .bool o.exporter.enabled), ("port", .ofNat o.exporter.port)])]

def Settings.toJson (s : Settings) : Json :=
  .object [("node", s.node.toJson), ("features", s.features.toJson), ("election", s.election.toJson),
    ("consensus", s.consensus.toJson), ("arbiter", .object [("weights", s.weights.toJson)]),
    ("safety", s.safety.toJson), ("reassignment", s.reassignment.toJson),
    ("orchestrator", s.orchestration.toJson), ("observability", s.observability.toJson)]

namespace Manifest

def heading (m : Manifest) : Json :=
  .object ([("name", .string m.name)] ++ (m.version.map fun v => ("version", .string v)).toList ++
    (m.labels.map fun ls => ("labels", .object (ls.entries.map fun e => (e.1, .string e.2)))).toList)

def toJson (m : Manifest) : Json :=
  .object [("apiVersion", .string m.apiVersion), ("kind", .string m.kind), ("metadata", m.heading),
    ("spec", m.settings.toJson)]

end Manifest

end FleetCoordination
