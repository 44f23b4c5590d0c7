import FleetCoordination.LatencyWindow
import FleetCoordination.Word
/-!
# Metrics

Counters, gauges and latencies of one agent in six groups, addressed inside the program
by field and outside it by name.
-/
namespace FleetCoordination

structure ElectionMetrics where
  started : Nat := 0
  won : Nat := 0
  stepDowns : Nat := 0
  votesGranted : Nat := 0
  heartbeatsSent : Nat := 0
  heartbeatsReceived : Nat := 0
  stale : Nat := 0
  currentTerm : Float := 0.0
  convergence : LatencyWindow := {}

structure ConsensusMetrics where
  proposals : Nat := 0
  approved : Nat := 0
  fallbackApproved : Nat := 0
  denied : Nat := 0
  timedOut : Nat := 0
  notLeader : Nat := 0
  quorumUnavailable : Nat := 0
  lateVotes : Nat := 0
  equivocations : Nat := 0
  duplicateCommits : Nat := 0
  commits : Nat := 0
  unauthorizedCommits : Nat := 0
  latency : LatencyWindow := {}

structure ArbitrationMetrics where
  resolutions : Nat := 0
  safetyOverrides : Nat := 0
  localWins : Nat := 0
  globalWins : Nat := 0
  complianceRejections : Nat := 0
  weightUpdates : Nat := 0
  conflictScore : Float := 0.0

structure SafetyMetrics where
  simulations : Nat := 0
  blocked : Nat := 0
  lastTotalRisk : Float := 0.0
  latency : LatencyWindow := {}

structure ReassignmentMetrics where
  cycles : Nat := 0
  proposals : Nat := 0
  approved : Nat := 0
  failed : Nat := 0
  debounced : Nat := 0
  failover : LatencyWindow := {}

structure OrchestrationMetrics where
  here : Nat := 0
  swarm : Nat := 0
  constellation : Nat := 0
  succeeded : Nat := 0
  failed : Nat := 0
  forcedLocal : Nat := 0
  lastCompliance : Float := 0.0

structure Metrics where
  election : ElectionMetrics := {}
  consensus : ConsensusMetrics := {}
  arbitration : ArbitrationMetrics := {}
  safety : SafetyMetrics := {}
  reassignment : ReassignmentMetrics := {}
  orchestration : OrchestrationMetrics := {}

/-- A whole number counted modulo `2^64`. -/
def countOn (value amount : Nat) : Nat := Word.add 64 value amount

def ElectionMetrics.toJson (m : ElectionMetrics) : Json :=
  .object [("elections_started", .ofNat m.started), ("elections_won", .ofNat m.won),
    ("step_downs", .ofNat m.stepDowns), ("votes_granted", .ofNat m.votesGranted),
    ("heartbeats_sent", .ofNat m.heartbeatsSent), ("heartbeats_received", .ofNat m.heartbeatsReceived),
    ("stale_messages", .ofNat m.stale), ("current_term", .ofNat (Scalar.floatWhole m.currentTerm)),
    ("convergence_latency", m.convergence.toJson)]

/-- The fields of a group, with its latency given separately. -/
def ConsensusMetrics.fields (m : ConsensusMetrics) (latency : Json) : Json :=
  .object [("proposals", .ofNat m.proposals), ("approved", .ofNat m.approved),
    ("fallback_approved", .ofNat m.fallbackApproved), ("denied", .ofNat m.denied),
    ("timed_out", .ofNat m.timedOut), ("not_leader", .ofNat m.notLeader),
    ("quorum_unavailable", .ofNat m.quorumUnavailable), ("late_votes", .ofNat m.lateVotes),
    ("equivocations", .ofNat m.equivocations), ("duplicate_commits", .ofNat m.duplicateCommits),
    ("commits", .ofNat m.commits), ("unauthorized_commits", .ofNat m.unauthorizedCommits),
    ("decision_latency", latency)]

def ArbitrationMetrics.toJson (m : ArbitrationMetrics) : Json :=
  .object [("resolutions", .ofNat m.resolutions), ("safety_overrides", .ofNat m.safetyOverrides),
    ("local_wins", .ofNat m.localWins), ("global_wins", .ofNat m.globalWins),
    ("compliance_rejections", .ofNat m.complianceRejections), ("weight_updates", .ofNat m.weightUpdates),
    ("conflict_score", .float m.conflictScore)]

def SafetyMetrics.fields (m : SafetyMetrics) (latency : Json) : Json :=
  .object [("simulations", .ofNat m.simulations), ("blocked", .ofNat m.blocked),
    ("last_total_risk", .float m.lastTotalRisk), ("latency", latency)]

def ReassignmentMetrics.fields (m : ReassignmentMetrics) (latency : Json) : Json :=
  .object [("cycles", .ofNat m.cycles), ("proposals", .ofNat m.proposals), ("approved", .ofNat m.approved),
    ("failed", .ofNat m.failed), ("debounced", .ofNat m.debounced), ("failover_latency", latency)]

def OrchestrationMetrics.toJson (m : OrchestrationMetrics) : Json :=
  .object [("local", .ofNat m.here), ("swarm", .ofNat m.swarm), ("constellation", .ofNat m.constellation),
    ("succeeded", .ofNat m.succeeded), ("failed", .ofNat m.failed), ("forced_local", .ofNat m.forcedLocal),
    ("last_compliance", .float m.lastCompliance)]

namespace Metrics

/-- The snapshot with the three latencies that depend on the host's speed written by
`latency` and the failover latency by `failover`. -/
def snapshot (m : Metrics) (latency failover : LatencyWindow → Json) : Json :=
  .object [("election", m.election.toJson), ("consensus", m.consensus.fields (latency m.consensus.latency)),
    ("arbitration", m.arbitration.toJson), ("safety", m.safety.fields (latency m.safety.latency)),
    ("reassignment", m.reassignment.fields (failover m.reassignment.failover)),
    ("orchestration", m.orchestration.toJson)]

def toJson (m : Metrics) : Json := m.snapshot LatencyWindow.toJson LatencyWindow.toJson

/-! ## Access by name -/

/-- One metric: how to read it and how to replace it. -/
inductive Entry
  | counter (value : Nat) (set : Nat → Metrics)
  | gauge (value : Float) (set : Float → Metrics)
  | latency (value : LatencyWindow) (set : LatencyWindow → Metrics)

def entry? (m : Metrics) (name : String) : Option Entry :=
  let e := m.election
  let c := m.consensus
  let a := m.arbitration
  let s := m.safety
  let r := m.reassignment
  let o := m.orchestration
  match name with
  | "election.elections_started" => some (.counter e.started fun n => { m with election := { e with started := n } })
  | "election.elections_won" => some (.counter e.won fun n => { m with election := { e with won := n } })
  | "election.step_downs" => some (.counter e.stepDowns fun n => { m with election := { e with stepDowns := n } })
  | "election.votes_granted" =>
    some (.counter e.votesGranted fun n => { m with election := { e with votesGranted := n } })
  | "election.heartbeats_sent" =>
    some (.counter e.heartbeatsSent fun n => { m with election := { e with heartbeatsSent := n } })
  | "election.heartbeats_received" =>
    some (.counter e.heartbeatsReceived fun n => { m with election := { e with heartbeatsReceived := n } })
  | "election.stale_messages" => some (.counter e.stale fun n => { m with election := { e with stale := n } })
  | "election.current_term" => some (.gauge e.currentTerm fun x => { m with election := { e with currentTerm := x } })
  | "election.convergence_latency" =>
    some (.latency e.convergence fun w => { m with election := { e with convergence := w } })
  | "consensus.proposals" => some (.counter c.proposals fun n => { m with consensus := { c with proposals := n } })
  | "consensus.approved" => some (.counter c.approved fun n => { m with consensus := { c with approved := n } })
  | "consensus.fallback_approved" =>
    some (.counter c.fallbackApproved fun n => { m with consensus := { c with fallbackApproved := n } })
  | "consensus.denied" => some (.counter c.denied fun n => { m with consensus := { c with denied := n } })
  | "consensus.timed_out" => some (.counter c.timedOut fun n => { m with consensus := { c with timedOut := n } })
  | "consensus.not_leader" => some (.counter c.notLeader fun n => { m with consensus := { c with notLeader := n } })
  | "consensus.quorum_unavailable" =>
    some (.counter c.quorumUnavailable fun n => { m with consensus := { c with quorumUnavailable := n } })
  | "consensus.late_votes" => some (.counter c.lateVotes fun n => { m with consensus := { c with lateVotes := n } })
  | "consensus.equivocations" =>
    some (.counter c.equivocations fun n => { m with consensus := { c with equivocations := n } })
  | "consensus.duplicate_commits" =>
    some (.counter c.duplicateCommits fun n => { m with consensus := { c with duplicateCommits := n } })
  | "consensus.commits" => some (.counter c.commits fun n => { m with consensus := { c with commits := n } })
  | "consensus.unauthorized_commits" =>
    some (.counter c.unauthorizedCommits fun n => { m with consensus := { c with unauthorizedCommits := n } })
  | "consensus.decision_latency" =>
    some (.latency c.latency fun w => { m with consensus := { c with latency := w } })
  | "arbitration.resolutions" =>
    some (.counter a.resolutions fun n => { m with arbitration := { a with resolutions := n } })
  | "arbitration.safety_overrides" =>
    some (.counter a.safetyOverrides fun n => { m with arbitration := { a with safetyOverrides := n } })
  | "arbitration.local_wins" => some (.counter a.localWins fun n => { m with arbitration := { a with localWins := n } })
  | "arbitration.global_wins" =>
    some (.counter a.globalWins fun n => { m with arbitration := { a with globalWins := n } })
  | "arbitration.compliance_rejections" =>
    some (.counter a.complianceRejections fun n => { m with arbitration := { a with complianceRejections := n } })
  | "arbitration.weight_updates" =>
    some (.counter a.weightUpdates fun n => { m with arbitration := { a with weightUpdates := n } })
  | "arbitration.conflict_score" =>
    some (.gauge a.conflictScore fun x => { m with arbitration := { a with conflictScore := x } })
  | "safety.simulations" => some (.counter s.simulations fun n => { m with safety := { s with simulations := n } })
  | "safety.blocked" => some (.counter s.blocked fun n => { m with safety := { s with blocked := n } })
  | "safety.last_total_risk" => some (.gauge s.lastTotalRisk fun x => { m with safety := { s with lastTotalRisk := x } })
  | "safety.latency" => some (.latency s.latency fun w => { m with safety := { s with latency := w } })
  | "reassignment.cycles" => some (.counter r.cycles fun n => { m with reassignment := { r with cycles := n } })
  | "reassignment.proposals" =>
    some (.counter r.proposals fun n => { m with reassignment := { r with proposals := n } })
  | "reassignment.approved" => some (.counter r.approved fun n => { m with reassignment := { r with approved := n } })
  | "reassignment.failed" => some (.counter r.failed fun n => { m with reassignment := { r with failed := n } })
  | "reassignment.debounced" =>
    some (.counter r.debounced fun n => { m with reassignment := { r with debounced := n } })
  | "reassignment.failover_latency" =>
    some (.latency r.failover fun w => { m with reassignment := { r with failover := w } })
  | "orchestration.local" => some (.counter o.here fun n => { m with orchestration := { o with here := n } })
  | "orchestration.swarm" => some (.counter o.swarm fun n => { m with orchestration := { o with swarm := n } })
  | "orchestration.constellation" =>
    some (.counter o.constellation fun n => { m with orchestration := { o with constellation := n } })
  | "orchestration.succeeded" =>
    some (.counter o.succeeded fun n => { m with orchestration := { o with succeeded := n } })
  | "orchestration.failed" => some (.counter o.failed fun n => { m with orchestration := { o with failed := n } })
  | "orchestration.forced_local" =>
    some (.counter o.forcedLocal fun n => { m with orchestration := { o with forcedLocal := n } })
  | "orchestration.last_compliance" =>
    some (.gauge o.lastCompliance fun x => { m with orchestration := { o with lastCompliance := x } })
  | _ => none

end Metrics

end FleetCoordination
