import FleetCoordination.Manifest
import FleetCoordination.Record
/-!
# Reading manifests

A manifest is read from any kind of document. Every section may be left out, and every
field of a section.
-/
namespace FleetCoordination.Manifest
variable {δ : Type} [Document δ]

open Reading Document

def word? (v : δ) : Option Nat := natural? 64 v

/-- A map from names to values; of equal names the later counts. -/
def table? {α : Type} (read : δ → Option α) (v : δ) : Option (Table String α) := do
  let es ← (← entries? v).mapM fun e => (read e.2).map (e.1, ·)
  some (Table.ofList es)

def nodeReading : Reading δ NodeIdentity := do
  let id ← required "id" text?
  let plane ← optional "plane" text?
  let tags ← withDefault "tags" [] (list? text?)
  pure { id, plane, tags }

def featuresReading : Reading δ Features := do
  let s : Features := {}
  let swarmEnabled ← withDefault "swarm_enabled" s.swarmEnabled flag?
  let forceLocal ← withDefault "force_local" s.forceLocal flag?
  let timeoutFallback ← withDefault "timeout_fallback" s.timeoutFallback flag?
  pure { swarmEnabled, forceLocal, timeoutFallback }

def electionReading : Reading δ ElectionSettings := do
  let s : ElectionSettings := {}
  let heartbeatMs ← withDefault "heartbeat_interval_ms" s.heartbeatMs word?
  let leaseMs ← withDefault "lease_ms" s.leaseMs word?
  let timeoutMinMs ← withDefault "election_timeout_min_ms" s.timeoutMinMs word?
  let timeoutMaxMs ← withDefault "election_timeout_max_ms" s.timeoutMaxMs word?
  pure { heartbeatMs, leaseMs, timeoutMinMs, timeoutMaxMs }

def consensusReading : Reading δ ConsensusSettings := do
  let s : ConsensusSettings := {}
  let quorumFraction ← withDefault "quorum_fraction" s.quorumFraction real?
  let actionQuorum ← withDefault "action_quorum" {} (table? real?)
  let minAlivePeers ← withDefault "min_alive_peers" s.minAlivePeers word?
  let defaultTimeoutMs ← withDefault "default_timeout_ms" s.defaultTimeoutMs word?
  let voteDeadlineMs ← withDefault "vote_deadline_ms" s.voteDeadlineMs word?
  let dedupCapacity ← withDefault "dedup_capacity" s.dedupCapacity word?
  let criticalRisk ← withDefault "critical_risk_threshold" s.criticalRisk real?
  pure { quorumFraction, actionQuorum, minAlivePeers, defaultTimeoutMs, voteDeadlineMs, dedupCapacity, criticalRisk }

def weightsReading : Reading δ Weights := do
  let s : Weights := WeightsOf.standard
  let safety ← withDefault "safety" s.safety real?
  let performance ← withDefault "performance" s.performance real?
  let availability ← withDefault "availability" s.availability real?
  pure { safety, performance, availability }

def arbiterReading : Reading δ Weights := withDefault "weights" WeightsOf.standard weightsReading.run

def safetyReading : Reading δ SafetyModel := do
  let s := SafetyModel.standard
  let threshold ← withDefault "risk_threshold" s.threshold real?
  let propagation ← withDefault "propagation_factor" s.propagation real?
  let maxNeighbors ← withDefault "max_neighbors" s.maxNeighbors word?
  let unknownRisk ← withDefault "unknown_action_risk" s.unknownRisk real?
  pure { threshold, propagation, maxNeighbors, unknownRisk }

def reassignmentReading : Reading δ ReassignmentSettings := do
  let s : ReassignmentSettings := {}
  let intervalSecs ← withDefault "interval_secs" s.intervalSecs word?
  let unhealthyRisk ← withDefault "unhealthy_risk_threshold" s.unhealthyRisk real?
  let recoveryRisk ← withDefault "recovery_risk_threshold" s.recoveryRisk real?
  let recoveryWindowSecs ← withDefault "recovery_window_secs" s.recoveryWindowSecs word?
  let hysteresisWindowSecs ← withDefault "hysteresis_window_secs" s.hysteresisWindowSecs word?
  let degradedThreshold ← withDefault "degraded_threshold" s.degradedThreshold (natural? 32)
  let safeModeThreshold ← withDefault "safe_mode_threshold" s.safeModeThreshold (natural? 32)
  let complianceThreshold ← withDefault "compliance_threshold" s.complianceThreshold real?
  let minPropagations ← withDefault "min_propagations" s.minPropagations (natural? 32)
  let backupCapacity ← withDefault "backup_capacity" s.backupCapacity word?
  let proposalTimeoutMs ← withDefault "proposal_timeout_ms" s.proposalTimeoutMs word?
  pure { intervalSecs, unhealthyRisk, recoveryRisk, recoveryWindowSecs, hysteresisWindowSecs, degradedThreshold,
         safeModeThreshold, complianceThreshold, minPropagations, backupCapacity, proposalTimeoutMs }

def orchestrationReading : Reading δ OrchestrationSettings := do
  let s : OrchestrationSettings := {}
  let swarmCompliance ← withDefault "swarm_compliance" s.swarmCompliance real?
  let constellationCompliance ← withDefault "constellation_compliance" s.constellationCompliance real?
  let propagationTimeoutMs ← withDefault "propagation_timeout_ms" s.propagationTimeoutMs word?
  pure { swarmCompliance, constellationCompliance, propagationTimeoutMs }

def loggingReading : Reading δ LoggingSettings := do
  let s : LoggingSettings := {}
  let level ← withDefault "level" s.level text?
  let format ← withDefault "format" s.format text?
  pure { level, format }

def exporterReading : Reading δ ExporterSettings := do
  let s : ExporterSettings := {}
  let enabled ← withDefault "enabled" s.enabled flag?
  let port ← withDefault "port" s.port (natural? 16)
  pure { enabled, port }

def observabilityReading : Reading δ Observability := do
  let logging ← withDefault "logging" {} loggingReading.run
  let exporter ← withDefault "metrics" {} exporterReading.run
  pure { logging, exporter }

def settingsReading (host : Host) : Reading δ Settings := do
  let node ← withDefault "node" { id := host.node } nodeReading.run
  let features ← withDefault "features" {} featuresReading.run
  let election ← withDefault "election" {} electionReading.run
  let consensus ← withDefault "consensus" {} consensusReading.run
  let weights ← withDefault "arbiter" WeightsOf.standard arbiterReading.run
  let safety ← withDefault "safety" SafetyModel.standard safetyReading.run
  let reassignment ← withDefault "reassignment" {} reassignmentReading.run
  let orchestration ← withDefault "orchestrator" {} orchestrationReading.run
  let observability ← withDefault "observability" {} observabilityReading.run
  pure { node, features, election, consensus, weights, safety, reassignment, orchestration, observability }

structure Heading where
  name : String
  version : Option String
  labels : Option (Table String String)

def headingReading : Reading δ Heading := do
  let name ← required "name" text?
  let version ← optional "version" text?
  let labels ← optional "labels" (table? text?)
  pure { name, version, labels }

def reading (host : Host) : Reading δ Manifest := do
  let apiVersion ← required "apiVersion" text?
  let kind ← required "kind" text?
  let heading ← required "metadata" headingReading.run
  let settings ← required "spec" (settingsReading host).run
  pure { apiVersion, kind, name := heading.name, version := heading.version, labels := heading.labels, settings }

/-- The manifest a document holds, for a host whose name stands in where none is given. -/
def read? (host : Host) (v : δ) : Option Manifest := (reading host).run v

end FleetCoordination.Manifest
