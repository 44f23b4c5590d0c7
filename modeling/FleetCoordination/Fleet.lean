import FleetCoordination.EventChannel
import FleetCoordination.Network
import FleetCoordination.Node
/-!
# Fleets

Nodes with their elections on one network, in simulated time. At one instant the tasks
that are due are queued in the order of the members, and every task runs until it has to
wait; what it publishes queues the readers behind it. A message takes no time.
-/
namespace FleetCoordination

structure Member where
  node : Node
  leadership : Leadership
  settings : Settings
  /-- Actions the executor fails at. -/
  failing : List String := []
  /-- What the executor has carried out, in order. -/
  applied : List (String × Json) := []
  /-- Ticks of the election clock so far. -/
  ticks : Nat := 0
  /-- Reviews begun by the member itself. -/
  reviews : Nat := 0
  /-- Whether such a review is under way. -/
  reviewing : Bool := false
  /-- Whether the member still reads, ticks and reviews. -/
  running : Bool := true

namespace Member

def self (m : Member) : AgentId := m.node.engine.self

/-- Its inbox in the network bears its own name. -/
def inbox (m : Member) : String := m.self

/-- A fifth of the election timeout, at least ten milliseconds; in microseconds. -/
def tickPeriod (m : Member) : Nat := max (m.settings.election.timeoutMinMs * 200) 10000

/-- The millisecond at which the election clock next ticks. -/
def nextTick (m : Member) : Nat := (m.ticks * m.tickPeriod + 999) / 1000

/-- The millisecond of the next review. The first comes after one interval. -/
def nextReview (m : Member) : Nat := (m.reviews + 1) * (m.settings.reassignment.intervalSecs * 1000)

/-- The election timeout that is drawn: the only one there is when both ends are equal. -/
def timeout (m : Member) : Nat := min m.settings.election.timeoutMinMs m.settings.election.timeoutMaxMs

/-- The times at which something is due. -/
def timers (m : Member) : List Nat :=
  m.node.timers ++ (if m.running then [m.nextTick] else []) ++
    (if m.running && !m.reviewing then [m.nextReview] else [])

end Member

/-- What a member does when it is its turn. -/
inductive Task
  | tick
  | review
  | route
  | go (i : Node.Input)

structure Fleet where
  network : Network
  world : World := {}
  members : List Member := []
  now : Nat := 0
  queue : List (Nat × Task) := []
  /-- Everything announced, oldest first. -/
  events : List Published := []
  /-- Jobs of the outside that have ended. -/
  finished : List (Nat × JobResult) := []
  /-- Whether the program has stopped on a fault of its own. -/
  halted : Bool := false

namespace Fleet

/-- The job of a member's own reviews, and of its answers to peers. Jobs of the outside
have greater numbers. -/
def ownReview : Nat := 0
def peerRequest : Nat := 1

/-- What the members' reviews read as the current time. It does not follow simulated time. -/
def wallClock : Timestamp := Timestamp.ofSeconds 1767225600

def modifyMember (f : Fleet) (i : Nat) (g : Member → Member) : Fleet := { f with members := f.members.modify i g }
def enqueue (f : Fleet) (i : Nat) (t : Task) : Fleet := { f with queue := f.queue ++ [(i, t)] }

def site (f : Fleet) (m : Member) : Site :=
  { world := f.world, leadership := m.leadership.view,
    evaluator := .healthGated m.settings.consensus.criticalRisk, failing := m.failing, now := f.now }

/-! ## Publishing -/

def Task.isRoute : Nat × Task → Nat → Bool
  | (j, .route), i => i = j
  | _, _ => false

/-- Queues the readers of inboxes that hold something. -/
def wakeReaders (f : Fleet) : Fleet :=
  (List.range f.members.length).foldl (fun f i =>
    match f.members[i]? with
    | some m =>
      match f.network.inbox? m.inbox with
      | some inbox =>
        if m.running && !inbox.queue.isEmpty && !f.queue.any (Task.isRoute · i) then f.enqueue i .route else f
      | none => f
    | none => f) f

def publish (f : Fleet) (agent : AgentId) (e : Envelope) (qos : Qos) : Fleet :=
  match f.network.publish agent e qos with
  | .ok network => { f with network }.wakeReaders
  | .error _ => f

def announce (f : Fleet) (source : AgentId) (event : Event) : Fleet := { f with events := f.events ++ [⟨source, event⟩] }

/-- Lets a member's election do what it asks for. -/
def lead (i : Nat) (self : AgentId) (f : Fleet) (step : Leadership × List Effect) : Fleet :=
  let f := f.modifyMember i fun m => { m with leadership := step.1 }
  step.2.foldl (fun f effect => match effect with
    | .send e qos => f.publish self e qos
    | .announce event => f.announce self event) f

/-- Lets one output of a member's node happen. -/
def emit (i : Nat) (self : AgentId) (f : Fleet) : Node.Output → Fleet
  | .send e qos => f.publish self e qos
  | .announce event => f.announce self event
  | .performed action params => f.modifyMember i fun m => { m with applied := m.applied ++ [(action, params)] }
  | .finished job result =>
    if job = ownReview then f.modifyMember i fun m => { m with reviewing := false }
    else if job = peerRequest then f
    else { f with finished := f.finished ++ [(job, result)] }
  | .wake input => f.enqueue i (.go input)
  | .next _ => f

/-- Gives a member's node an input, with all that follows at once. -/
def feed (f : Fleet) (i : Nat) (input : Node.Input) : Fleet :=
  match f.members[i]? with
  | none => f
  | some m =>
    let (node, outputs) := Node.drive (f.site m) Node.patience [input] m.node
    let f := f.modifyMember i fun m => { m with node }
    outputs.foldl (emit i m.self) { f with halted := f.halted || node.halted }

/-! ## Tasks -/

def tick (f : Fleet) (i : Nat) : Fleet :=
  match f.members[i]? with
  | none => f
  | some m =>
    match m.leadership.tick f.now f.world.alive m.timeout with
    | some step => f.lead i m.self step
    | none => { f with halted := true }

/-- Hands one envelope to the part it is for. Requests and commits become tasks of their own. -/
def routeOne (i : Nat) (f : Fleet) (e : Envelope) : Fleet :=
  match f.members[i]? with
  | none => f
  | some m =>
    if e.isFor m.self then
      match Engine.Input.ofEnvelope? (.client peerRequest) e with
      | some input =>
        if input.immediate then f.feed i (.engine input) else f.enqueue i (.go (.engine input))
      | none => f.lead i m.self (m.leadership.receive e.message f.now f.world.alive m.timeout)
    else f

/-- Reads everything a member's inbox holds. -/
def route (f : Fleet) (i : Nat) : Fleet :=
  match f.members[i]? with
  | none => f
  | some m =>
    if m.running then
      let received := ((f.network.inbox? m.inbox).map (·.queue)).getD []
      received.foldl (routeOne i) { f with network := f.network.drain m.inbox }
    else f

def perform (f : Fleet) : Nat × Task → Fleet
  | (i, .tick) => f.tick i
  | (i, .review) => f.feed i (.review ownReview wallClock)
  | (i, .route) => f.route i
  | (i, .go input) => f.feed i input

/-- Runs queued tasks in order until none is left. `fuel` bounds their number. -/
def settleWithin : Nat → Fleet → Fleet
  | 0, f => f
  | fuel + 1, f =>
    match f.queue with
    | [] => f
    | t :: rest => settleWithin fuel ({ f with queue := rest }.perform t)

def settle (f : Fleet) : Fleet := settleWithin Node.patience f

/-! ## Time -/

/-- The next time at which something is due. -/
def nextTime (f : Fleet) : Option Nat := ((f.members.flatMap Member.timers).min?).map (max f.now)

/-- Queues what is due for one member. -/
def fireMember (f : Fleet) (i : Nat) : Fleet :=
  match f.members[i]? with
  | none => f
  | some m =>
    let ticking := m.running && decide (m.nextTick ≤ f.now)
    let reviewing := m.running && !m.reviewing && decide (m.nextReview ≤ f.now)
    let due := (m.node.due f.now).map Task.go ++ (if ticking then [.tick] else []) ++
      (if reviewing then [.review] else [])
    let m := { m with
      node := m.node.forgetDue f.now
      ticks := if ticking then m.ticks + 1 else m.ticks
      reviews := if reviewing then m.reviews + 1 else m.reviews
      reviewing := m.reviewing || reviewing }
    { f with members := f.members.set i m, queue := f.queue ++ due.map (i, ·) }

/-- Moves to a time and queues what is due then. -/
def fire (f : Fleet) (time : Nat) : Fleet :=
  (List.range f.members.length).foldl fireMember { f with now := time }

/-- Lets time pass until `stop`, and everything happen that is due before or at it. -/
def passWithin (stop : Nat) : Nat → Fleet → Fleet
  | 0, f => f
  | fuel + 1, f =>
    match f.nextTime.filter fun t => t ≤ stop with
    | some t => if f.halted then f else passWithin stop fuel (f.fire t).settle
    | none => { f with now := max f.now stop }

def pass (f : Fleet) (millis : Nat) : Fleet := passWithin (f.now + millis) (millis + Node.patience) f

/-- The end of a job. -/
def result? (f : Fleet) (job : Nat) : Option JobResult := f.finished.lookup job

/-- Lets time pass until something holds. -/
def runUntil (arrived : Fleet → Bool) : Nat → Fleet → Fleet
  | 0, f => f
  | fuel + 1, f =>
    let f := f.settle
    if arrived f || f.halted then f
    else
      match f.nextTime with
      | some t => runUntil arrived fuel (f.fire t)
      | none => f

/-- Gives a member a job and waits for its end. -/
def ask (f : Fleet) (i : Nat) (job : Nat) (input : Node.Input) : Fleet × Option JobResult :=
  let f := runUntil (fun f => (f.result? job).isSome) Node.patience (f.feed i input)
  (f, f.result? job)

/-- Has a member propose an action and waits for the outcome. -/
def propose (f : Fleet) (i : Nat) (job : Nat) (action : String) (params : Json) (timeout : Nat) :
    Fleet × Option JobResult :=
  f.ask i job (.propose job action params timeout)

/-! ## Starting and stopping -/

inductive StartFault
  | subscribe (agent : AgentId) (cause : TransportFault)
  | weights (cause : WeightsError Float)
  /-- The program cannot go on at all. -/
  | halt

def StartFault.ofNode : NodeFault → StartFault
  | .memory => halt
  | .weights cause => weights cause

def StartFault.message : StartFault → String
  | subscribe agent cause => s!"Failed to subscribe {agent} to coordination topics: {cause.message}"
  | weights cause => s!"Invalid arbiter weights: {cause.message}"
  | halt => ""

/-- Spans of so many seconds lead beyond the end of the clock. -/
def clockEnd : Nat := Word.last 63

/-- Starts a node for the agent that the settings name. -/
def start (f : Fleet) (s : Settings) (roles : RoleTable) : Except StartFault Fleet := do
  let self := s.node.id
  let network ← (f.network.subscribe self self (Topic.all.map Topic.text)).mapError (.subscribe self)
  let node ← (Node.create s).mapError .ofNode
  if s.reassignment.intervalSecs = 0 ∨ clockEnd ≤ s.reassignment.intervalSecs then throw .halt
  let timeout := min s.election.timeoutMinMs s.election.timeoutMaxMs
  let machine := Election.Machine.create self f.now timeout s.election.leaseMs s.election.heartbeatMs
  let node := { node with lastId := f.members.length * Word.count 64 }
  let member : Member := { node := node.withRoles roles, leadership := { machine }, settings := s }
  pure { f with network, members := f.members ++ [member] }

/-- Stops a member: it no longer reads, ticks or begins reviews. A review under way is
given five seconds to end. -/
def shutdown (f : Fleet) (i : Nat) : Fleet :=
  match f.members[i]? with
  | none => f
  | some m =>
    let f := f.modifyMember i fun m => { m with running := false }
    let f := { f with network := f.network.close m.inbox }
    let stop := f.now + 5000
    let ended (f : Fleet) : Bool :=
      ((f.members[i]?).map fun m => !m.reviewing).getD true || (f.nextTime.all fun t => stop < t)
    let f := runUntil ended Node.patience f
    if m.reviewing && (f.members[i]?).any (·.reviewing) then { f with now := max f.now stop } else f

/-! ## Changes from outside -/

/-- What happens to the members and their links, the members told by their places. -/
inductive Change
  | kill (i : Nat)
  | revive (i : Nat)
  | alive (i : Nat) (alive : Bool)
  | risk (i : Nat) (risk : Float)
  | isolate (i : Nat)
  | rejoin (i : Nat)
  | partition (i j : Nat)
  | heal (i j : Nat)
  | healAll
  | loss (probability : Float)
  | fail (i : Nat) (action : String)

/-- A change from its record, whose field `do` names it. -/
def Change.ofJson? (j : Json) : Option Change :=
  let i := j.nat "node"
  match j.text "do" with
  | "kill" => some (.kill i)
  | "revive" => some (.revive i)
  | "alive" => some (.alive i (j.flag "alive"))
  | "risk" => some (.risk i (j.real "risk"))
  | "isolate" => some (.isolate i)
  | "rejoin" => some (.rejoin i)
  | "partition" => some (.partition (j.nat "a") (j.nat "b"))
  | "heal" => some (.heal (j.nat "a") (j.nat "b"))
  | "heal_all" => some .healAll
  | "loss" => some (.loss (j.real "probability"))
  | "fail" => some (.fail i (j.text "action"))
  | _ => none

/-- Serial texts from `SAT-001`. -/
def serial (index : Nat) : AgentId := "SAT-" ++ Decimal.zeroFilled 3 (index + 1)

/-- A dead member is cut off as well. -/
def apply (f : Fleet) : Change → Fleet
  | .kill i => { f with world := f.world.setAlive (serial i) false, network := f.network.isolate (serial i) }
  | .revive i => { f with world := f.world.setAlive (serial i) true, network := f.network.rejoin (serial i) }
  | .alive i alive => { f with world := f.world.setAlive (serial i) alive }
  | .risk i risk => { f with world := f.world.setRisk (serial i) risk }
  | .isolate i => { f with network := f.network.isolate (serial i) }
  | .rejoin i => { f with network := f.network.rejoin (serial i) }
  | .partition i j => { f with network := f.network.partition (serial i) (serial j) }
  | .heal i j => { f with network := f.network.heal (serial i) (serial j) }
  | .healAll => { f with network := f.network.healAll }
  | .loss probability => { f with network := f.network.setLoss probability }
  | .fail i action => f.modifyMember i fun m => { m with failing := action :: m.failing }

/-! ## Standard fleets -/

/-- First primary, then backup, the others on standby. -/
def initialRole : Nat → Role
  | 0 => .primary
  | 1 => .backup
  | _ => .standby

/-- A network, a world and a role table for `n` agents. -/
def prepare (n : Nat) : Fleet × RoleTable :=
  (List.range n).foldl (fun (f, roles) i =>
    let agent := serial i
    ({ f with network := f.network.attach agent, world := f.world.register agent },
      Table.insert roles agent (initialRole i)))
    ({ network := Network.ofCapacity Network.standardCapacity }, {})

end Fleet

end FleetCoordination
