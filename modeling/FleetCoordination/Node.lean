import FleetCoordination.Evaluator
import FleetCoordination.Orchestration
import FleetCoordination.Reassignment.Cycle
/-!
# Nodes

All parts of one agent together: the engine, the orchestrator and the reassigner that
propose through it, and the jobs that wait for them. A node is stepped by inputs like
its engine. `drive` lets a job run on until it has to wait; the executor and an
evaluator without delay answer at once.
-/
namespace FleetCoordination

/-- What a node sees of its surroundings. -/
structure Site where
  world : World := {}
  leadership : LeadershipView
  bus : Option TransportFault := none
  evaluator : Evaluator := .grantAll
  /-- Actions the executor fails at. -/
  failing : List String := []
  now : Nat := 0

namespace Site

def surroundings (s : Site) : Surroundings :=
  { leadership := s.leadership, alive := s.world.alive, bus := s.bus, now := s.now }

def time (s : Site) : Timestamp := Timestamp.ofMillis s.now

def scene (s : Site) : Scene :=
  { leadership := s.leadership, neighbors := s.world.neighborhood s.leadership.self, time := s.time }

/-- How the executor ends an action. -/
def perform (s : Site) (action : String) : Except ExecutionFault Unit :=
  if action ∈ s.failing then .error (.actuator action) else .ok ()

end Site

/-- Who waits for a proposal or a propagation. -/
inductive Caller
  | client (job : Nat)
  | decision (job : Nat)
  | cycle (job : Nat)
  deriving DecidableEq

/-- A reassignment cycle that has been entered. It is opened when those before it are over. -/
structure Turn where
  job : Nat
  now : Timestamp
  cycle : Option Reassignment.Cycle := none

/-- An evaluation that takes time. -/
structure Evaluation where
  due : Nat
  seat : Seat Caller
  judgement : Judgement

/-- How a job of a client ends. -/
inductive JobResult
  | proposal (result : Except Fault ProposalResult)
  | propagation (result : Except Fault PropagationReport)
  | applied (result : Except Fault Bool)
  | voted
  | outcome (o : ExecutionOutcome)
  | refused (f : Fault)
  | report (r : Reassignment.CycleReport)

structure Node where
  engine : Engine Caller
  orchestrator : Orchestrator
  reassigner : Reassignment.Reassigner
  executions : List (Nat × Execution) := []
  turns : List Turn := []
  evaluations : List Evaluation := []
  /-- The last proposal id that was given out. -/
  lastId : Nat := 0
  /-- Whether a window of the settings was too long for a span of time. -/
  halted : Bool := false

/-- Why some settings have no node. -/
inductive NodeFault
  /-- The memory of executed proposals is too large to be laid out. -/
  | memory
  | weights (cause : WeightsError Float)

namespace Node

/-- The node that some settings ask for. -/
def create (s : Settings) : Except NodeFault Node :=
  if (ExecutedWindow.ofCapacity? s.consensus.dedupCapacity).isNone then .error .memory
  else match Arbitration.Arbiter.ofWeights s.weights with
  | .error e => .error (.weights e)
  | .ok arbiter =>
    let self := s.node.id
    .ok {
      engine := Engine.create self s.consensus s.features.timeoutFallback
      orchestrator :=
        { self, settings := s.orchestration, features := s.features, defaultTimeout := s.consensus.defaultTimeoutMs,
          safety := { model := s.safety, enabled := s.features.swarmEnabled }, arbiter }
      reassigner := { self, settings := s.reassignment } }

def roles (n : Node) : RoleTable := n.engine.ledger.roles

def withRoles (n : Node) (roles : RoleTable) : Node :=
  { n with engine := { n.engine with ledger := { n.engine.ledger with roles } } }

inductive Input
  | engine (i : Engine.Input Caller)
  | propose (job : Nat) (action : String) (params : Json) (timeout : Nat)
  | carryOut (job : Nat) (d : Decision) (scope : Scope) (timeout : Nat)
  | resolve (job : Nat) (here global : Policy) (context : SafetyContext) (decision : Uuid) (timeout : Nat)
  | review (job : Nat) (now : Timestamp)
  /-- An execution gets the answer it has waited for. -/
  | answer (job : Nat) (a : Answer)
  /-- The first turn begins. -/
  | openTurn
  /-- The proposal of the first turn has come to an end. -/
  | raised (result : Except Fault ProposalResult)

inductive Output
  | send (envelope : Envelope) (qos : Qos)
  | announce (event : Event)
  | performed (action : String) (params : Json)
  | finished (job : Nat) (result : JobResult)
  /-- The job goes on with this input at once. -/
  | next (i : Input)
  /-- Some other job goes on with this input. -/
  | wake (i : Input)

abbrev Step := Node × List Output

/-! ## The engine's outputs -/

def evaluate (s : Site) (n : Node) (seat : Seat Caller) (action : String) : Step :=
  let (delay, judgement) :=
    Evaluator.bounded n.engine.settings.voteDeadlineMs (s.evaluator.judge s.world n.engine.self action)
  if delay = 0 then (n, [.next (.engine (.evaluated seat judgement))])
  else ({ n with evaluations := n.evaluations ++ [⟨s.now + delay, seat, judgement⟩] }, [])

def execute (s : Site) (action : String) (params : Json) (ended : Except ExecutionFault Unit → Input) : List Output :=
  match s.perform action with
  | .ok _ => [.performed action params, .next (ended (.ok ()))]
  | .error cause => [.next (ended (.error cause))]

/-- Hands a message to the bus, which ends this at once. -/
def post (s : Site) (e : Envelope) (ended : Except TransportFault Unit → Input) : List Output :=
  match s.bus with
  | some f => [.next (ended (.error f))]
  | none => [.send e .atLeastOnce, .next (ended (.ok ()))]

def submitted : Caller → Except Fault ProposalResult → Output
  | .client job, r => .finished job (.proposal r)
  | .decision job, r => .next (.answer job (.proposed r))
  | .cycle _, r => .next (.raised r)

def propagated : Caller → Except Fault PropagationReport → Output
  | .decision job, r => .next (.answer job (.propagated r))
  | .client job, r => .finished job (.propagation r)
  | .cycle job, r => .finished job (.propagation r)

def jobOf : Caller → Nat
  | .client job => job
  | .decision job => job
  | .cycle job => job

/-- Passes on one output of the engine. -/
def absorb (s : Site) (acc : Step) (o : Engine.Output Caller) : Step :=
  let (n, outputs) := acc
  match o with
  | .send e qos => (n, outputs ++ [.send e qos])
  | .post errand e => (n, outputs ++ post s e fun ended => .engine (.posted errand ended))
  | .announce e => (n, outputs ++ [.announce e])
  | .evaluate seat action =>
    let (n, more) := n.evaluate s seat action
    (n, outputs ++ more)
  | .execute ticket action params => (n, outputs ++ execute s action params fun ended => .engine (.executed ticket ended))
  | .submitted caller r => (n, outputs ++ [submitted caller r])
  | .propagated caller r => (n, outputs ++ [propagated caller r])
  | .applied caller r => (n, outputs ++ [.finished (jobOf caller) (.applied r)])
  | .voted caller => (n, outputs ++ [.finished (jobOf caller) .voted])

/-- The input by which the task of a round goes on reading votes. -/
def moreVotes (e : Engine Caller) (id : ProposalId) : List Input :=
  match e.round? id with
  | some r => if r.own.isSome && !r.inbox.isEmpty then [.engine (.readVote id)] else []
  | none => []

/-- The input by which the task of a propagation goes on reading acknowledgements. -/
def moreAcks (e : Engine Caller) (id : ProposalId) : List Input :=
  match e.propagation? id with
  | some p => if p.own.isSome && !p.inbox.isEmpty then [.engine (.readAck id)] else []
  | none => []

/-- How the task that made a step goes on after it. -/
def goesOn (before after : Engine Caller) : Engine.Input Caller → List Input
  | .readVote id => moreVotes after id
  | .evaluated (.proposer id) _ => moreVotes after id
  | .readAck id => moreAcks after id
  | .posted (.propagation id) _ => moreAcks after id
  | .executed ticket _ =>
    match before.applications.find? fun a => a.ticket = ticket with
    | some a => moreAcks after a.id
    | none => []
  | _ => []

/-- Tasks that wait for what has arrived. -/
def wakes (after : Engine Caller) : Engine.Input Caller → List Input
  | .vote v => moreVotes after v.id
  | .ack a => moreAcks after a.id
  | _ => []

def stepEngine (s : Site) (n : Node) (i : Engine.Input Caller) : Step :=
  let before := n.engine
  let (engine, outputs) := before.step s.surroundings i
  let (n, outputs) := outputs.foldl (absorb s) ({ n with engine }, [])
  (n, outputs ++ (goesOn before engine i).map .next ++ (wakes engine i).map .wake)

/-- Proposes under the next id. -/
def propose (s : Site) (n : Node) (caller : Caller) (action : String) (params : Json) (timeout : Nat) : Step :=
  let n := { n with lastId := n.lastId + 1 }
  n.stepEngine s (.submit caller { id := Uuid.ofNat n.lastId, action, params, timeout })

/-! ## Decisions -/

def dropExecution (n : Node) (job : Nat) : Node := { n with executions := n.executions.filter fun x => x.1 ≠ job }

/-- Does what an execution asks for. -/
def follow (s : Site) (n : Node) (job : Nat) (step : Orchestrator.Step) : Step :=
  let (orchestrator, events, course) := step
  let n := { n.dropExecution job with orchestrator }
  let announced := events.map .announce
  match course with
  | .ended outcome => (n, announced ++ [.finished job (.outcome outcome)])
  | .waiting x call =>
    let n := { n with executions := n.executions ++ [(job, x)] }
    match call with
    | .execute action params => (n, announced ++ execute s action params fun ended => .answer job (.executed ended))
    | .propose action params timeout =>
      let (n, outputs) := n.propose s (.decision job) action params timeout
      (n, announced ++ outputs)
    | .propagate id action params timeout =>
      let (n, outputs) := n.stepEngine s (.propagate (.decision job) id action params timeout)
      (n, announced ++ outputs)

def carryOut (s : Site) (n : Node) (job : Nat) (d : Decision) (scope : Scope) (timeout : Nat) : Step :=
  n.follow s job (n.orchestrator.start s.scene d scope timeout)

def resolve (s : Site) (n : Node) (job : Nat) (here global : Policy) (context : SafetyContext) (decision : Uuid)
    (timeout : Nat) : Step :=
  let (orchestrator, arbitrated) := n.orchestrator.arbitrate here global context decision s.time
  let n := { n with orchestrator }
  match arbitrated with
  | .error f => (n, [.finished job (.refused f)])
  | .ok d => n.carryOut s job d d.scope timeout

def answer (s : Site) (n : Node) (job : Nat) (a : Answer) : Step :=
  match n.executions.lookup job with
  | some x => n.follow s job (n.orchestrator.resume s.time x a)
  | none => (n, [])

/-! ## Cycles -/

/-- Puts the next plan of the first turn to the vote, or ends the turn. -/
def raiseNext (s : Site) (n : Node) (t : Turn) (c : Reassignment.Cycle) (later : List Turn) : Step :=
  match c.pending with
  | [] =>
    ({ n with turns := later },
      .finished t.job (.report c.report) :: if later.isEmpty then [] else [.wake .openTurn])
  | p :: _ =>
    let n := { n with
      turns := { t with cycle := some c } :: later
      reassigner := n.reassigner.raise p c.now }
    n.propose s (.cycle t.job) RoleReassignment.action p.content.toJson n.reassigner.settings.proposalTimeoutMs

/-- Begins the first turn with the cycle it was examined to. -/
def beginTurn (s : Site) (n : Node) (t : Turn) (later : List Turn) :
    Option (Reassignment.Reassigner × Reassignment.Cycle) → Step
  | none => ({ n with halted := true, turns := later }, [])
  | some (reassigner, c) => { n with reassigner }.raiseNext s t c later

def openTurn (s : Site) (n : Node) : Step :=
  match n.turns with
  | [] => (n, [])
  | t :: later =>
    n.beginTurn s t later (n.reassigner.examine s.world n.engine.ledger.roles (some n.engine.tracker) t.now)

/-- The first turn takes note of what became of its plan. -/
def raised (s : Site) (n : Node) (result : Except Fault ProposalResult) : Step :=
  match n.turns with
  | t :: later =>
    match t.cycle with
    | some c =>
      match c.pending with
      | p :: rest =>
        let (reassigner, tracker, c) := n.reassigner.settle (some n.engine.tracker) c p result
        let engine := { n.engine with tracker := tracker.getD n.engine.tracker }
        { n with reassigner, engine }.raiseNext s t { c with pending := rest } later
      | [] => (n, [])
    | none => (n, [])
  | [] => (n, [])

/-- Enters a cycle; one that finds another under way waits for it. -/
def review (s : Site) (n : Node) (job : Nat) (now : Timestamp) : Step :=
  if s.leadership.isLeader then
    let n := { n with reassigner := n.reassigner.enter }
    let first := n.turns.isEmpty
    let n := { n with turns := n.turns ++ [⟨job, now, none⟩] }
    if first then n.openTurn s else (n, [])
  else (n, [.finished job (.report {})])

/-! ## Steps and drives -/

def step (s : Site) (n : Node) : Input → Step
  | .engine i => n.stepEngine s i
  | .propose job action params timeout => n.propose s (.client job) action params timeout
  | .carryOut job d scope timeout => n.carryOut s job d scope timeout
  | .resolve job here global context decision timeout => n.resolve s job here global context decision timeout
  | .review job now => n.review s job now
  | .answer job a => n.answer s job a
  | .openTurn => n.openTurn s
  | .raised r => n.raised s r

def next? : Output → Option Input
  | .next i => some i
  | _ => none

/-- Steps a node by inputs in order, each followed by what it goes on with at once.
`fuel` bounds the number of steps. -/
def drive (s : Site) : Nat → List Input → Node → Step
  | 0, _, n => (n, [])
  | _, [], n => (n, [])
  | fuel + 1, i :: rest, n =>
    let (n, outputs) := n.step s i
    let (n, later) := drive s fuel (outputs.filterMap next? ++ rest) n
    (n, outputs.filter (fun o => (next? o).isNone) ++ later)

/-- More steps than a job makes without waiting. -/
def patience : Nat := 1000000

def wake? : Output → Option Input
  | .wake i => some i
  | _ => none

/-- Lets tasks run on in the order in which they were woken. -/
def settle (s : Site) : Nat → List Input → Node → Step
  | 0, _, n => (n, [])
  | _, [], n => (n, [])
  | fuel + 1, i :: rest, n =>
    let (n, outputs) := drive s patience [i] n
    let (n, later) := settle s fuel (rest ++ outputs.filterMap wake?) n
    (n, outputs.filter (fun o => (wake? o).isNone) ++ later)

/-- Takes inputs in order and then lets everything run that they have woken. -/
def handle (s : Site) (n : Node) (inputs : List Input) : Step :=
  let (n, outputs) := drive s patience inputs n
  let (n, later) := settle s patience (outputs.filterMap wake?) n
  (n, outputs.filter (fun o => (wake? o).isNone) ++ later)

/-! ## Timers -/

/-- The times at which something is due. -/
def timers (n : Node) : List Nat :=
  n.evaluations.map (·.due) ++ (n.engine.rounds.filter fun r => r.own.isSome).map (·.deadline) ++
    (n.engine.propagations.filter fun p => p.own.isSome).map (·.deadline)

/-- What is due at a time. -/
def due (n : Node) (now : Nat) : List Input :=
  ((n.evaluations.filter fun v => v.due ≤ now).map fun v => .engine (.evaluated v.seat v.judgement)) ++
  ((n.engine.rounds.filter fun r => r.own.isSome && decide (r.deadline ≤ now)).map fun r => .engine (.readVote r.id)) ++
  ((n.engine.propagations.filter fun p => p.own.isSome && decide (p.deadline ≤ now)).map fun p =>
    .engine (.readAck p.id))

/-- Forgets the evaluations that are due. -/
def forgetDue (n : Node) (now : Nat) : Node := { n with evaluations := n.evaluations.filter fun v => now < v.due }

/-- Lets time pass up to `stop`, with everything that falls due on the way. `fuel` bounds
the number of moments at which something is due. -/
def passing (stop : Nat) : Nat → Site → Node → Step
  | 0, _, n => (n, [])
  | fuel + 1, s, n =>
    match (n.timers.filter fun t => t ≤ stop).min? with
    | none => (n, [])
    | some t =>
      let s := { s with now := max s.now t }
      let (n, outputs) := settle s patience (n.due t) (n.forgetDue t)
      let (n, later) := passing stop fuel s n
      (n, outputs ++ later)

def pass (s : Site) (n : Node) (millis : Nat) : Step := passing (s.now + millis) (millis + 1) s n

/-! ## Figures -/

def metrics (n : Node) (election : ElectionMetrics) : Metrics :=
  { election, consensus := n.engine.metrics, arbitration := n.orchestrator.arbiter.metrics,
    safety := n.orchestrator.safety.metrics, reassignment := n.reassigner.metrics,
    orchestration := n.orchestrator.metrics }

end Node

end FleetCoordination
