import FleetCoordination.Election
import FleetCoordination.Event
import FleetCoordination.Metrics
/-!
# Leadership

An agent's part in elections: its election machine, what it sends and announces for
it, and the counts it keeps. Other parts of the agent see a view only.
-/
namespace FleetCoordination

/-- What an agent does to the outside. -/
inductive Effect
  | send (envelope : Envelope) (qos : Qos)
  | announce (event : Event)

/-- Who leads, as one agent sees it. -/
structure LeadershipView where
  self : AgentId
  isLeader : Bool
  leader : Option AgentId
  term : Term

/-- A leadership that no election moves. -/
def LeadershipView.fixed (self : AgentId) (leader : Option AgentId) (term : Term) : LeadershipView :=
  { self, isLeader := leader = some self, leader, term }

structure Leadership where
  machine : Election.Machine
  metrics : ElectionMetrics := {}

namespace Leadership
open Election

def view (l : Leadership) : LeadershipView :=
  { self := l.machine.self, isLeader := l.machine.isLeader, leader := l.machine.leader, term := l.machine.term }

def count (m : ElectionMetrics) : Output → ElectionMetrics
  | .broadcast (.heartbeat _) => { m with heartbeatsSent := m.heartbeatsSent + 1 }
  | .broadcast (.voteRequest _) => { m with started := m.started + 1 }
  | .broadcast _ => m
  | .reply _ _ => m
  | .voteGranted _ _ => { m with votesGranted := m.votesGranted + 1 }
  | .becameLeader _ wait => { m with won := m.won + 1, convergence := m.convergence.recordMillis wait }
  | .steppedDown _ => { m with stepDowns := m.stepDowns + 1 }

def qosOf : Message → Qos
  | .heartbeat _ => .atMostOnce
  | _ => .atLeastOnce

def effects (self : AgentId) (now : Nat) : Output → List Effect
  | .broadcast m => [.send (Envelope.broadcast self (Timestamp.ofMillis now) m) (qosOf m)]
  | .reply recipient m => [.send (Envelope.direct self recipient (Timestamp.ofMillis now) m) .atLeastOnce]
  | .voteGranted _ _ => []
  | .becameLeader term _ => [.announce (.leaderElected self term (Timestamp.ofMillis now))]
  | .steppedDown term => [.announce (.leaderSteppedDown self term (Timestamp.ofMillis now))]

/-- Takes over a machine's new state and carries out its outputs. -/
def dispatch (l : Leadership) (machine : Machine) (now : Nat) (outputs : List Output) : Leadership × List Effect :=
  let counted := outputs.foldl count l.metrics
  ({ machine, metrics := { counted with currentTerm := Float.ofNat machine.term } },
    outputs.flatMap (effects machine.self now))

def tick (l : Leadership) (now : Nat) (alive : List AgentId) (timeout : Nat) : Option (Leadership × List Effect) :=
  (l.machine.tick now alive timeout).map fun (machine, outputs) => l.dispatch machine now outputs

def countStale (m : ElectionMetrics) : ElectionMetrics := { m with stale := m.stale + 1 }

def countHeartbeat (m : ElectionMetrics) : Disposition → ElectionMetrics
  | .accepted => { m with heartbeatsReceived := m.heartbeatsReceived + 1 }
  | .stale => countStale m
  | .ignored => m

/-- Takes an election message; others are not for it. -/
def receive (l : Leadership) (message : Message) (now : Nat) (alive : List AgentId) (timeout : Nat) :
    Leadership × List Effect :=
  match message with
  | .voteRequest request =>
    if request.term < l.machine.term then ({ l with metrics := countStale l.metrics }, [])
    else
      let (machine, outputs) := l.machine.onVoteRequest request now timeout
      l.dispatch machine now outputs
  | .electionVote vote =>
    let (machine, outputs) := l.machine.onVote vote now alive
    l.dispatch machine now outputs
  | .heartbeat beat =>
    let l := { l with metrics := countHeartbeat l.metrics (l.machine.disposition beat) }
    let (machine, outputs) := l.machine.onHeartbeat beat now timeout
    l.dispatch machine now outputs
  | _ => (l, [])

end Leadership

end FleetCoordination
