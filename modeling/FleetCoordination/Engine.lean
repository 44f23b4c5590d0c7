import FleetCoordination.Leadership
import FleetCoordination.Ledger
import FleetCoordination.Propagation
import FleetCoordination.Quorum
import FleetCoordination.Round
/-!
# The engine of one agent

Rounds and propagations that are under way, the ledger, and the applications the
executor has not ended yet. Every input is one indivisible step: it gives a new engine
and a list of outputs. Whoever drives the engine may interleave the steps of its tasks
in any order.
-/
namespace FleetCoordination

/-- What an engine sees of its surroundings at one step. -/
structure Surroundings where
  leadership : LeadershipView
  /-- In increasing order, each once. -/
  alive : List AgentId
  /-- Why nothing can be published at present. It is the messages whose sender goes on all the same
  that are lost so; what becomes of the others is told by an input. -/
  bus : Option TransportFault := none
  /-- In milliseconds. -/
  now : Nat := 0

/-- Why an action is applied. -/
inductive Purpose (κ : Type)
  /-- The proposer applies its own commit. -/
  | commit (result : ProposalResult) (caller : κ)
  /-- The sender of a propagation applies it too. -/
  | propagation
  | approval
  /-- A peer has propagated the action and is owed an acknowledgement. -/
  | delivery (sender : AgentId)
  | direct (caller : κ)

/-- An action in the hands of the executor. -/
structure Application (κ : Type) where
  ticket : Nat
  id : ProposalId
  action : String
  purpose : Purpose κ

/-- Whose vote an evaluation is for. -/
inductive Seat (κ : Type)
  | proposer (id : ProposalId)
  | peer (sender : AgentId) (id : ProposalId) (caller : κ)

structure Judgement where
  granted : Bool
  reason : Option String := none

def Judgement.grant : Judgement := { granted := true }
def Judgement.deny (reason : String) : Judgement := { granted := false, reason := some reason }

structure Engine (κ : Type) where
  self : AgentId
  settings : ConsensusSettings := {}
  /-- Whether a proposer may follow its own vote when time is up. -/
  fallback : Bool := true
  ledger : Ledger
  rounds : List (Round κ) := []
  propagations : List (Propagation κ) := []
  applications : List (Application κ) := []
  /-- Number of applications ever handed to the executor. -/
  tickets : Nat := 0
  tracker : ComplianceTracker := {}
  metrics : ConsensusMetrics := {}

namespace Engine
variable {κ : Type}

inductive Output (κ : Type)
  | send (envelope : Envelope) (qos : Qos)
  /-- A message to hand to the bus, with word of how that ends. -/
  | post (errand : Errand) (envelope : Envelope)
  | announce (event : Event)
  | evaluate (seat : Seat κ) (action : String)
  | execute (ticket : Nat) (action : String) (params : Json)
  | submitted (caller : κ) (result : Except Fault ProposalResult)
  | propagated (caller : κ) (result : Except Fault PropagationReport)
  | applied (caller : κ) (result : Except Fault Bool)
  /-- A peer's request has been answered. -/
  | voted (caller : κ)

abbrev Step (κ : Type) := Engine κ × List (Output κ)

def create (self : AgentId) (settings : ConsensusSettings) (fallback : Bool) : Engine κ :=
  { self, settings, fallback, ledger := Ledger.ofCapacity settings.dedupCapacity }

def round? (e : Engine κ) (id : ProposalId) : Option (Round κ) := e.rounds.find? fun r => r.id = id
def propagation? (e : Engine κ) (id : ProposalId) : Option (Propagation κ) := e.propagations.find? fun p => p.id = id

def setRound (e : Engine κ) (r : Round κ) : Engine κ :=
  { e with rounds := e.rounds.map fun r' => if r'.id = r.id then r else r' }
def dropRound (e : Engine κ) (id : ProposalId) : Engine κ :=
  { e with rounds := e.rounds.filter fun r => r.id ≠ id }
def setPropagation (e : Engine κ) (p : Propagation κ) : Engine κ :=
  { e with propagations := e.propagations.map fun p' => if p'.id = p.id then p else p' }
def dropPropagation (e : Engine κ) (id : ProposalId) : Engine κ :=
  { e with propagations := e.propagations.filter fun p => p.id ≠ id }

/-- Sends a message unless the bus is out of order. -/
def publish (c : Surroundings) (e : Envelope) : List (Output κ) :=
  match c.bus with
  | some _ => []
  | none => [.send e .atLeastOnce]

def time (c : Surroundings) : Timestamp := Timestamp.ofMillis c.now

def broadcast (e : Engine κ) (c : Surroundings) (m : Message) : List (Output κ) :=
  publish c (Envelope.broadcast e.self (time c) m)

def reply (e : Engine κ) (c : Surroundings) (recipient : AgentId) (m : Message) : List (Output κ) :=
  publish c (Envelope.direct e.self recipient (time c) m)

/-! ## Propagations -/

/-- Ends a propagation that is over. -/
def closePropagation (e : Engine κ) (c : Surroundings) (p : Propagation κ) : Step κ :=
  if p.settled c.now then
    ({ e.dropPropagation p.id with tracker := p.track e.tracker }, [.propagated p.caller (.ok p.report)])
  else (e.setPropagation p, [])

/-! ## Applications -/

/-- Carries on what an application was for. -/
def settle (e : Engine κ) (c : Surroundings) (id : ProposalId) (purpose : Purpose κ) (result : Except Fault Bool) :
    Step κ :=
  match purpose with
  | .commit r caller => (e, [.submitted caller (result.map fun _ => r)])
  | .propagation =>
    match e.propagation? id with
    | some p => e.closePropagation c { p with progress := .reading result.isOk }
    | none => (e, [])
  | .approval => (e, [])
  | .delivery sender => (e, e.reply c sender (.ack { id, agent := e.self, applied := result.isOk }))
  | .direct caller => (e, [.applied caller result])

def countCommit (e : Engine κ) : Engine κ := { e with metrics := { e.metrics with commits := e.metrics.commits + 1 } }

def countDuplicate (e : Engine κ) : Engine κ :=
  { e with metrics := { e.metrics with duplicateCommits := e.metrics.duplicateCommits + 1 } }

def committed (e : Engine κ) (c : Surroundings) (id : ProposalId) (action : String) : Output κ :=
  .announce (.actionCommitted e.self id action (time c))

/-- Sets out to apply an action. -/
def apply (e : Engine κ) (c : Surroundings) (id : ProposalId) (action : String) (params : Json) (purpose : Purpose κ) :
    Step κ :=
  let (ledger, opening) := e.ledger.start id action params
  let e := { e with ledger }
  match opening with
  | .repeated earlier => e.countDuplicate.settle c id purpose ((earlier.mapError .execution).map fun _ => false)
  | .reassigned changes =>
    let (e, outputs) := e.countCommit.settle c id purpose (.ok true)
    (e, changes.map (fun change => .announce (.roleReassigned change id (time c))) ++
      e.committed c id action :: outputs)
  | .refused cause => e.settle c id purpose (.error (.execution cause))
  | .handed =>
    ({ e with
        applications := e.applications ++ [{ ticket := e.tickets, id, action, purpose }]
        tickets := e.tickets + 1 },
      [.execute e.tickets action params])

/-- Takes an application off the executor. -/
def release (e : Engine κ) (a : Application κ) (ended : Except ExecutionFault Unit) : Engine κ :=
  { e with
    ledger := e.ledger.conclude a.id ended
    applications := e.applications.filter fun a' => a'.ticket ≠ a.ticket }

/-- The executor has ended an application. -/
def executed (e : Engine κ) (c : Surroundings) (ticket : Nat) (ended : Except ExecutionFault Unit) : Step κ :=
  match e.applications.find? fun a => a.ticket = ticket with
  | none => (e, [])
  | some a =>
    let e := e.release a ended
    match ended with
    | .ok _ =>
      let (e, outputs) := e.countCommit.settle c a.id a.purpose (.ok true)
      (e, e.committed c a.id a.action :: outputs)
    | .error cause => e.settle c a.id a.purpose (.error (.execution cause))

/-! ## Rounds -/

def countOutcome (m : ConsensusMetrics) (o : Outcome) : ConsensusMetrics :=
  let m := { m with latency := m.latency.record 0.0 }
  match o with
  | .approved => { m with approved := m.approved + 1 }
  | .fallbackApproved => { m with fallbackApproved := m.fallbackApproved + 1 }
  | .denied => { m with denied := m.denied + 1 }
  | .timedOut => { m with timedOut := m.timedOut + 1 }

def resolved (c : Surroundings) (r : Round κ) (o : Outcome) : Output κ :=
  let result := r.result o
  .announce (.proposalResolved r.id r.proposal.action o.text result.grants result.denies result.quorum (time c))

/-- Takes a round that has come to an outcome off the engine. -/
def endRound (e : Engine κ) (r : Round κ) (o : Outcome) : Engine κ :=
  { e.dropRound r.id with metrics := countOutcome e.metrics o }

/-- Ends a round that knows its outcome. -/
def closeRound (e : Engine κ) (c : Surroundings) (r : Round κ) (o : Outcome) : Step κ :=
  let e := e.endRound r o
  if o.committed then
    let sent := e.broadcast c (.approval (r.approval o))
    let (e, outputs) := e.apply c r.id r.proposal.action r.proposal.params (.commit (r.result o) r.caller)
    (e, resolved c r o :: (sent ++ outputs))
  else (e, [resolved c r o, .submitted r.caller (.ok (r.result o))])

/-- Refuses a proposal. -/
def refuse (e : Engine κ) (caller : κ) (f : Fault) : Step κ := (e, [.submitted caller (.error f)])

/-- The agents that may vote on a proposal made now. -/
def electorate (e : Engine κ) (c : Surroundings) : List AgentId := Text.sorted (e.self :: c.alive)

/-- Whether an id is in use or used up. -/
def taken (e : Engine κ) (id : ProposalId) : Bool := (e.round? id).isSome || e.ledger.executed.contains id

/-- The round of a proposal made now. -/
def opening (e : Engine κ) (c : Surroundings) (caller : κ) (p : Proposal) : Round κ :=
  let voters := e.electorate c
  let quorum := Quorum.size (e.settings.fractionFor p.action) voters.length
  { caller, proposal := p, term := c.leadership.term, ballot := Ballot.open_ voters quorum,
    deadline := c.now + p.timeout }

def submit (e : Engine κ) (c : Surroundings) (caller : κ) (p : Proposal) : Step κ :=
  let voters := (e.electorate c).length
  if !c.leadership.isLeader then
    { e with metrics := { e.metrics with notLeader := e.metrics.notLeader + 1 } }.refuse caller
      (.notLeader c.leadership.leader)
  else if voters < e.settings.minAlivePeers then
    { e with metrics := { e.metrics with quorumUnavailable := e.metrics.quorumUnavailable + 1 } }.refuse caller
      (.quorumUnavailable voters e.settings.minAlivePeers)
  else if e.taken p.id then e.refuse caller (.idCollision p.id)
  else
    let e := { e with metrics := { e.metrics with proposals := e.metrics.proposals + 1 } }
    ({ e with rounds := e.rounds ++ [e.opening c caller p] },
      [.post (.proposal p.id) (Envelope.broadcast e.self (time c) (.proposalRequest (Round.request p)))])

/-- The bus has taken the request of a round, or has not and the round is given up. -/
def requestPosted (e : Engine κ) (id : ProposalId) (ended : Except TransportFault Unit) : Step κ :=
  match e.round? id with
  | none => (e, [])
  | some r =>
    if r.progress = .posting then
      match ended with
      | .ok _ => (e.setRound r.sent, [.evaluate (.proposer id) r.proposal.action])
      | .error f => (e.dropRound id).refuse r.caller (.transport f)
    else (e, [])

/-- Takes a round to its end if it knows its outcome. -/
def advanceRound (e : Engine κ) (c : Surroundings) (r : Round κ) : Step κ :=
  match r.outcome? e.fallback c.now with
  | some o => e.closeRound c r o
  | none => (e.setRound r, [])

/-- Counts a vote that contradicts an earlier one. -/
def countVote (e : Engine κ) (record : Ballot.Record) : Engine κ :=
  let equivocations := if record = .equivocation then e.metrics.equivocations + 1 else e.metrics.equivocations
  { e with metrics := { e.metrics with equivocations } }

/-- Reads the next vote of a round, or finds that none came in time. -/
def readVote (e : Engine κ) (c : Surroundings) (id : ProposalId) : Step κ :=
  match e.round? id with
  | none => (e, [])
  | some r =>
    if r.own.isSome then
      match r.read? with
      | some (r, record) => (e.countVote record).advanceRound c r
      | none => e.advanceRound c r
    else (e, [])

/-- Routes a vote to its round. -/
def vote (e : Engine κ) (v : ProposalVote) : Engine κ :=
  match e.round? v.id with
  | some r => e.setRound (r.offer v)
  | none => { e with metrics := { e.metrics with lateVotes := e.metrics.lateVotes + 1 } }

/-- The evaluation of a proposal has come to a judgement. -/
def evaluated (e : Engine κ) (c : Surroundings) (seat : Seat κ) (j : Judgement) : Step κ :=
  match seat with
  | .proposer id =>
    match e.round? id with
    | some r =>
      if r.progress = .working then e.advanceRound c (r.castOwn e.self j.granted) else (e, [])
    | none => (e, [])
  | .peer sender id caller =>
    (e, e.reply c sender (.proposalVote { id, voter := e.self, granted := j.granted, reason := j.reason }) ++
      [.voted caller])

/-- A peer asks for this agent's vote. -/
def request (e : Engine κ) (caller : κ) (sender : AgentId) (m : ProposalRequest) : Step κ :=
  if sender = e.self then (e, [.voted caller]) else (e, [.evaluate (.peer sender m.id caller) m.action])

/-! ## Commits of others -/

/-- Only the known leader may commit, and only in the current term. -/
def accepts (v : LeadershipView) (sender : AgentId) (term : Term) : Bool := v.leader = some sender && term = v.term

def countUnauthorized (e : Engine κ) : Engine κ :=
  { e with metrics := { e.metrics with unauthorizedCommits := e.metrics.unauthorizedCommits + 1 } }

def approval (e : Engine κ) (c : Surroundings) (sender : AgentId) (m : Approval) : Step κ :=
  if accepts c.leadership sender m.term then e.apply c m.id m.action m.params .approval
  else (e.countUnauthorized, [])

def delivery (e : Engine κ) (c : Surroundings) (sender : AgentId) (m : Propagate) : Step κ :=
  if sender = e.self then (e, [])
  else if accepts c.leadership sender m.term then e.apply c m.id m.action m.params (.delivery sender)
  else (e.countUnauthorized, [])

/-! ## Propagating -/

/-- Puts a propagation under way. -/
def openPropagation (e : Engine κ) (p : Propagation κ) : Engine κ := { e with propagations := e.propagations ++ [p] }

/-- Refuses a propagation. -/
def declinePropagation (e : Engine κ) (caller : κ) (f : Fault) : Step κ := (e, [.propagated caller (.error f)])

def propagate (e : Engine κ) (c : Surroundings) (caller : κ) (id : ProposalId) (action : String) (params : Json)
    (timeout : Nat) : Step κ :=
  let targets := Text.sorted (c.alive.filter fun a => a ≠ e.self)
  if (e.propagation? id).isSome then e.declinePropagation caller (.idCollision id)
  else
    (e.openPropagation { caller, id, action, params, targets, deadline := c.now + timeout },
      [.post (.propagation id)
        (Envelope.broadcast e.self (time c) (.propagate { id, action, params, term := c.leadership.term }))])

/-- The bus has taken the message of a propagation, which the sender applies too, or has not and
the propagation is given up. -/
def propagationPosted (e : Engine κ) (c : Surroundings) (id : ProposalId) (ended : Except TransportFault Unit) :
    Step κ :=
  match e.propagation? id with
  | none => (e, [])
  | some p =>
    if p.progress = .posting then
      match ended with
      | .ok _ => (e.setPropagation p.sent).apply c id p.action p.params .propagation
      | .error f => (e.dropPropagation id).declinePropagation p.caller (.transport f)
    else (e, [])

/-- The bus has ended an errand. -/
def posted (e : Engine κ) (c : Surroundings) (errand : Errand) (ended : Except TransportFault Unit) : Step κ :=
  match errand with
  | .proposal id => e.requestPosted id ended
  | .propagation id => e.propagationPosted c id ended

/-- Routes an acknowledgement to its propagation. -/
def ack (e : Engine κ) (a : ActionAck) : Engine κ :=
  match e.propagation? a.id with
  | some p => e.setPropagation (p.offer a)
  | none => e

/-- Reads the next acknowledgement of a propagation, or finds that none came in time. -/
def readAck (e : Engine κ) (c : Surroundings) (id : ProposalId) : Step κ :=
  match e.propagation? id with
  | none => (e, [])
  | some p =>
    if p.own.isSome then e.closePropagation c (p.read?.getD p) else (e, [])

/-! ## Inputs -/

/-- Everything that can happen to an engine. -/
inductive Input (κ : Type)
  | submit (caller : κ) (proposal : Proposal)
  | propagate (caller : κ) (id : ProposalId) (action : String) (params : Json) (timeout : Nat)
  | request (caller : κ) (sender : AgentId) (m : ProposalRequest)
  | vote (v : ProposalVote)
  | approval (sender : AgentId) (m : Approval)
  | delivery (sender : AgentId) (m : Propagate)
  | ack (a : ActionAck)
  | apply (caller : κ) (id : ProposalId) (action : String) (params : Json)
  | posted (errand : Errand) (ended : Except TransportFault Unit)
  | evaluated (seat : Seat κ) (j : Judgement)
  | executed (ticket : Nat) (ended : Except ExecutionFault Unit)
  | readVote (id : ProposalId)
  | readAck (id : ProposalId)

/-- What an envelope asks of the engine of the agent it reaches. Election messages ask
nothing of it; `caller` is told when a request has been answered. -/
def Input.ofEnvelope? (caller : κ) (e : Envelope) : Option (Input κ) :=
  match e.message with
  | .voteRequest _ | .electionVote _ | .heartbeat _ => none
  | .proposalVote v => some (.vote v)
  | .ack a => some (.ack a)
  | .proposalRequest m => some (.request caller e.sender m)
  | .approval m => some (.approval e.sender m)
  | .propagate m => some (.delivery e.sender m)

/-- Whether an input is taken at once and not as a task of its own. -/
def Input.immediate : Input κ → Bool
  | .vote _ | .ack _ => true
  | _ => false

def step (e : Engine κ) (c : Surroundings) : Input κ → Step κ
  | .submit caller p => e.submit c caller p
  | .propagate caller id action params timeout => e.propagate c caller id action params timeout
  | .request caller sender m => e.request caller sender m
  | .vote v => (e.vote v, [])
  | .approval sender m => e.approval c sender m
  | .delivery sender m => e.delivery c sender m
  | .ack a => (e.ack a, [])
  | .apply caller id action params => e.apply c id action params (.direct caller)
  | .posted errand ended => e.posted c errand ended
  | .evaluated seat j => e.evaluated c seat j
  | .executed ticket ended => e.executed c ticket ended
  | .readVote id => e.readVote c id
  | .readAck id => e.readAck c id

end Engine

end FleetCoordination
