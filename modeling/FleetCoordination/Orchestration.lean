import FleetCoordination.Arbitration
import FleetCoordination.Event
import FleetCoordination.Leadership
import FleetCoordination.Propagation
import FleetCoordination.Settings
import FleetCoordination.World
/-!
# Orchestration

Carries out decisions. A local decision goes to the executor. A coordinated one passes
stages in a fixed order: the parts it needs are there, the safety simulation allows it
(across the constellation only), this agent leads, the proposal commits, the propagation
is acknowledged well enough. A decision waits for others twice at most, so its execution
is given as a state: `start` opens it and `resume` takes each answer.
-/
namespace FleetCoordination

/-- Which parts an orchestrator has. -/
structure Parts where
  leadership : Bool := true
  consensus : Bool := true
  registry : Bool := true
  propagator : Bool := true
  safety : Bool := true
  arbiter : Bool := true
  events : Bool := true

/-- The first part that is missing for a coordinated decision. -/
def Parts.missing? (p : Parts) (scope : Scope) : Option Part :=
  if !p.leadership then some .election
  else if !p.consensus then some .consensus
  else if !p.registry then some .registry
  else if !p.propagator then some .propagator
  else if scope = .constellation ∧ p.safety = false then some .safety
  else none

structure ExecutionOutcome where
  decision : Uuid
  action : String
  requested : Scope
  effective : Scope
  proposal : Option ProposalId := none
  compliance : Option Float := none
  verdict : Option Verdict := none
  failure : Option Fault := none

namespace ExecutionOutcome

def success (o : ExecutionOutcome) : Bool := o.failure.isNone

def reason (o : ExecutionOutcome) : String :=
  match o.failure, o.compliance with
  | some f, _ => f.message
  | none, some c => s!"executed at {o.effective.text} scope, compliance {Decimal.fixed 2 c}"
  | none, none => s!"executed at {o.effective.text} scope"

/-- The outcome apart from the id of its decision. -/
def summary (o : ExecutionOutcome) : List (String × Json) :=
  [("action", .string o.action), ("requested_scope", o.requested.toJson), ("effective_scope", o.effective.toJson),
    ("success", .bool o.success), ("reason", .string o.reason), ("proposal_id", Json.ofOption Uuid.toJson o.proposal),
    ("compliance", Json.ofOption .float o.compliance), ("failure", Json.ofOption .string (o.failure.map Fault.kind)),
    ("safety", Json.ofOption Verdict.toJson o.verdict)]

end ExecutionOutcome

/-- What an execution asks of the other parts. -/
inductive Call
  | execute (action : String) (params : Json)
  | propose (action : String) (params : Json) (timeout : Nat)
  | propagate (id : ProposalId) (action : String) (params : Json) (timeout : Nat)

inductive Answer
  | executed (ended : Except ExecutionFault Unit)
  | proposed (result : Except Fault ProposalResult)
  | propagated (result : Except Fault PropagationReport)

/-- A decision that waits for an answer, with its outcome so far. -/
structure Execution where
  decision : Decision
  outcome : ExecutionOutcome

inductive Course
  | waiting (x : Execution) (call : Call)
  | ended (outcome : ExecutionOutcome)

structure Orchestrator where
  self : AgentId
  settings : OrchestrationSettings := {}
  features : Features := {}
  /-- Milliseconds a proposal may take when the decision does not say. -/
  defaultTimeout : Nat := 5000
  parts : Parts := {}
  safety : SafetySimulator
  arbiter : Arbitration.Arbiter
  metrics : OrchestrationMetrics := {}

/-- What an orchestrator looks at when it starts a decision. -/
structure Scene where
  leadership : LeadershipView
  neighbors : Neighborhood
  time : Timestamp

namespace Orchestrator

abbrev Step := Orchestrator × List Event × Course

/-- Without the swarm every decision is local. -/
def effectiveScope (f : Features) (requested : Scope) : Scope :=
  if f.forceLocal || !f.swarmEnabled then .here else requested

def countScope (m : OrchestrationMetrics) (requested effective : Scope) : OrchestrationMetrics :=
  let m := if requested = effective then m else { m with forcedLocal := m.forcedLocal + 1 }
  match effective with
  | .here => { m with here := m.here + 1 }
  | .swarm => { m with swarm := m.swarm + 1 }
  | .constellation => { m with constellation := m.constellation + 1 }

/-- Compliance that a propagation must reach. -/
def required (s : OrchestrationSettings) : Scope → Float
  | .constellation => s.constellationCompliance
  | .swarm | .here => s.swarmCompliance

/-- Announces an event if there is someone to tell. -/
def announce (o : Orchestrator) (e : Event) : List Event := if o.parts.events then [e] else []

def report (x : ExecutionOutcome) (time : Timestamp) : Event :=
  .decisionExecuted x.decision x.action x.requested x.effective x.success x.reason time

/-- Ends an execution, with the fault that stopped it if there is one. -/
def finish (o : Orchestrator) (time : Timestamp) (x : Execution) (failure : Option Fault) : Step :=
  let outcome := { x.outcome with failure }
  let m := o.metrics
  let metrics := if outcome.success then { m with succeeded := m.succeeded + 1 } else { m with failed := m.failed + 1 }
  ({ o with metrics }, o.announce (report outcome time), .ended outcome)

def blockText (v : Verdict) : String := v.reason?.getD "risk above threshold"

/-- Simulates a decision across the constellation; others need no simulation. -/
def simulate (o : Orchestrator) (scene : Scene) (x : Execution) : Orchestrator × Execution :=
  if x.outcome.effective = .constellation then
    let (safety, verdict) := o.safety.simulate x.decision.action x.decision.params scene.neighbors
    ({ o with safety }, { x with outcome := { x.outcome with verdict := some verdict } })
  else (o, x)

/-- Opens a coordinated decision. -/
def coordinate (o : Orchestrator) (scene : Scene) (x : Execution) (timeout : Nat) : Step :=
  match o.parts.missing? x.outcome.effective with
  | some part => o.finish scene.time x (some (.dependencyUnavailable part))
  | none =>
    let (o, x) := o.simulate scene x
    match x.outcome.verdict.filter fun v => !v.safe with
    | some v =>
      let blocked := o.announce (.actionBlocked x.decision.action v.total (blockText v) scene.time)
      let (o, events, course) := o.finish scene.time x (some (.unsafeAction x.decision.action v.total (blockText v)))
      (o, blocked ++ events, course)
    | none =>
      if scene.leadership.isLeader then (o, [], .waiting x (.propose x.decision.action x.decision.params timeout))
      else o.finish scene.time x (some (.notLeader scene.leadership.leader))

def start (o : Orchestrator) (scene : Scene) (d : Decision) (requested : Scope) (timeout : Nat) : Step :=
  let effective := effectiveScope o.features requested
  let o := { o with metrics := countScope o.metrics requested effective }
  let x : Execution := { decision := d, outcome := { decision := d.id, action := d.action, requested, effective } }
  if effective = .here then (o, [], .waiting x (.execute d.action d.params)) else o.coordinate scene x timeout

/-- The fault of a proposal that was not committed. -/
def rejection? (r : ProposalResult) : Option Fault :=
  match r.outcome with
  | .approved | .fallbackApproved => none
  | .denied => some (.proposalDenied r.id r.grants r.denies r.quorum)
  | .timedOut => some (.quorumTimeout r.id r.grants r.quorum)

def onProposal (o : Orchestrator) (time : Timestamp) (x : Execution) : Except Fault ProposalResult → Step
  | .error f => o.finish time x (some f)
  | .ok r =>
    let x := { x with outcome := { x.outcome with proposal := some r.id } }
    match rejection? r with
    | some f => o.finish time x (some f)
    | none =>
      (o, [], .waiting x (.propagate r.id x.decision.action x.decision.params o.settings.propagationTimeoutMs))

def onReport (o : Orchestrator) (time : Timestamp) (x : Execution) : Except Fault PropagationReport → Step
  | .error f => o.finish time x (some f)
  | .ok r =>
    let achieved := r.compliance
    let needed := required o.settings x.outcome.effective
    let x := { x with outcome := { x.outcome with compliance := some achieved } }
    let o := { o with metrics := { o.metrics with lastCompliance := achieved } }
    o.finish time x (if achieved < needed then some (.complianceShortfall achieved needed) else none)

/-- Takes the answer an execution has waited for. -/
def resume (o : Orchestrator) (time : Timestamp) (x : Execution) : Answer → Step
  | .executed (.ok _) => o.finish time x none
  | .executed (.error cause) => o.finish time x (some (.execution cause))
  | .proposed r => o.onProposal time x r
  | .propagated r => o.onReport time x r

/-! ## Arbitration first -/

def scopeOf : PolicyScope → Scope
  | .here => .here
  | .swarm => .swarm

/-- The decision to do what a winning policy says, under the given id. -/
def decisionFor (r : Arbitration.ResolutionOf Float) (id : Uuid) (time : Timestamp) : Decision :=
  Decision.withConfidence
    { id, action := r.winner.action, scope := scopeOf r.winner.scope, params := r.winner.parameters, confidence := 0.0,
      reasoning := s!"{r.source.text} policy won arbitration ({r.reason.name})", created := time }
    r.winner.score

/-- Arbitrates between two policies and checks the winner against the constraints in force. -/
def arbitrate (o : Orchestrator) (here global : Policy) (context : SafetyContext) (id : Uuid) (time : Timestamp) :
    Orchestrator × Except Fault Decision :=
  if o.parts.arbiter then
    let (arbiter, r) := o.arbiter.resolve here global
    let (arbiter, checked) := arbiter.check r.winner context
    ({ o with arbiter }, checked.map fun _ => decisionFor r id time)
  else (o, .error (.dependencyUnavailable .arbiter))

end Orchestrator

end FleetCoordination
