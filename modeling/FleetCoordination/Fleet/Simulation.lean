import FleetCoordination.Fleet
import FleetCoordination.Json.Printer
import FleetCoordination.Manifest
import FleetCoordination.Text.Blank
/-!
# Simulations

A fleet of equal nodes is watched for some seconds. A clock of four ticks a second ends
the run, degrades the primary if that is wanted, and has the leader decide an action now
and then.
-/
namespace FleetCoordination.Simulation

structure Options where
  agents : Nat := 5
  seconds : Nat := 30
  failPrimary : Bool := false
  failAfter : Nat := 5
  cycleSeconds : Nat := 2
  decisionEvery : Nat := 5
  json : Bool := false

/-- What is printed. -/
inductive Line
  | text (s : String)
  | event (elapsed : Float) (p : Published)

def Line.print : Line → String
  | text s => s
  | event elapsed p =>
    (Json.object [("elapsed_s", .float elapsed), ("event", p.event.toJson), ("source", .string p.source)]).print

/-- The risk of a primary that fails. -/
def failedRisk : Float := 0.6

/-- Milliseconds between two ticks. -/
def period : Nat := 250

/-- The manifest of one agent of the fleet. -/
def manifestFor (base : Manifest) (agent : AgentId) (cycleSeconds : Nat) : Manifest :=
  let s := base.settings
  { base with
    name := agent
    settings := { s with
      node := { s.node with id := agent }
      reassignment := { s.reassignment with intervalSecs := max cycleSeconds 1 } } }

/-- Milliseconds as seconds. -/
def seconds (millis : Nat) : Float := Float.ofNat (millis / 1000) + Float.ofNat (millis % 1000 * 1000000) / 1e9

def stamp (millis : Nat) : String := "[+" ++ Text.padLeft 6 (Decimal.fixed 1 (seconds millis)) ++ "s]"

/-- The line of an event, if it is worth one. -/
def lineOf? (json : Bool) (p : Published) : Option Line :=
  let elapsed := p.event.time.millis.toNat
  if json then some (.event (seconds elapsed) p)
  else p.event.describe?.map fun s => .text (stamp elapsed ++ " " ++ Text.padRight 8 p.source ++ " " ++ s)

/-! ## The run -/

structure Run where
  fleet : Fleet
  lines : List Line
  /-- Whether the primary has failed. -/
  failed : Bool := false
  /-- When the next decision is due, in milliseconds. -/
  nextDecision : Nat
  /-- The number of the last job. -/
  job : Nat := Fleet.peerRequest

/-- Prints what has been announced. -/
def Run.report (o : Options) (r : Run) : Run :=
  { r with
    fleet := { r.fleet with events := [] }
    lines := r.lines ++ r.fleet.events.filterMap (lineOf? o.json) }

/-- Lets time pass up to a moment, whose own tasks are queued only. -/
def reach (f : Fleet) (time : Nat) : Fleet :=
  if time ≤ f.now then f else (f.pass (time - 1 - f.now)).fire time

def Run.degrade (o : Options) (r : Run) : Run :=
  if o.failPrimary && !r.failed && decide (o.failAfter * 1000 ≤ r.fleet.now) then
    let primary := Fleet.serial 0
    { r with
      fleet := { r.fleet with world := r.fleet.world.setRisk primary failedRisk }
      failed := true
      lines := r.lines ++ [.text (stamp r.fleet.now ++ " " ++ primary ++ " risk raised to " ++ Decimal.fixed 2 failedRisk)] }
  else r

/-- The decision that is taken now and then. -/
def decision (job : Nat) (now : Nat) : Decision :=
  { id := Uuid.ofNat job, action := "load_shed", scope := .swarm, params := .object [("shed_percent", .int 10)],
    confidence := 1.0, reasoning := "simulated periodic load balancing", created := Timestamp.ofMillis now }

def leader? (f : Fleet) : Option Nat := f.members.findIdx? fun m => m.leadership.machine.isLeader

def Run.decide (o : Options) (r : Run) : Run :=
  if 0 < o.decisionEvery && r.nextDecision ≤ r.fleet.now then
    let r := { r with nextDecision := r.fleet.now + o.decisionEvery * 1000 }
    match leader? r.fleet with
    | some i =>
      match r.fleet.members[i]? with
      | some m =>
        let d := decision (r.job + 1) r.fleet.now
        let (fleet, _) := r.fleet.ask i (r.job + 1) (.carryOut (r.job + 1) d d.scope m.node.orchestrator.defaultTimeout)
        { r with fleet, job := r.job + 1 }
      | none => r
    | none => r
  else r

/-- Runs from the tick of a number on. What is due at the very end does not happen. -/
def Run.go (o : Options) : Nat → Nat → Run → Run
  | 0, _, r => r
  | fuel + 1, tick, r =>
    let r := { r with fleet := reach r.fleet (tick * period) }.report o
    if o.seconds * 1000 ≤ r.fleet.now || r.fleet.halted then r
    else
      let r := (r.degrade o).decide o
      Run.go o fuel (tick + 1) ({ r with fleet := r.fleet.settle }.report o)

/-! ## The end -/

def roleLine (roles : RoleTable) (agent : AgentId) : String :=
  "  " ++ Text.padRight 8 agent ++ " " ++ ((roles.get? agent).map Role.text).getD "unknown"

/-- The state of a fleet: roles as the leader knows them, or the first agent if there is none. -/
def finalLines (f : Fleet) : List String :=
  let leader := (leader? f).bind fun i => f.members[i]?
  let roles := ((leader.orElse fun _ => f.members.head?).map fun m => m.node.roles).getD {}
  let counts (m : Member) : List String :=
    let c := m.node.engine.metrics
    let r := m.node.reassigner.metrics
    [s!"  Proposals: {c.approved} approved, {c.fallbackApproved} fallback, {c.denied} denied, {c.timedOut} timed out",
      s!"  Reassignments: {r.approved} committed of {r.proposals} proposed"]
  ["", "Final state:", "  Leader: " ++ (leader.map Member.self).getD "(none)"] ++
    f.members.map (fun m => roleLine roles m.self) ++ (leader.map counts).getD []

def firstLine (o : Options) : String :=
  let failing := if o.failPrimary then " (primary will fail)" else ""
  s!"Starting constellation of {o.agents} agents for {o.seconds} s{failing}"

/-- Starts the fleet. The fault comes with the agent that does not start. -/
def start (base : Manifest) (o : Options) : Except (AgentId × Fleet.StartFault) Fleet :=
  let (f, roles) := Fleet.prepare o.agents
  (List.range o.agents).foldlM (fun f i =>
    let agent := Fleet.serial i
    (f.start (manifestFor base agent o.cycleSeconds).settings roles).mapError (agent, ·)) f

/-- Whether all moments that are waited for lie before the end of the clock. -/
def Options.fits (o : Options) : Bool :=
  [o.seconds, o.failAfter, o.decisionEvery].all fun s => s < Fleet.clockEnd

/-- How a run ends. -/
inductive Ending
  | done
  | notStarted (agent : AgentId) (cause : Fleet.StartFault)
  /-- The program has stopped on a fault of its own. -/
  | halted

/-- Simulates a fleet of agents that are set up by one manifest. -/
def run (base : Manifest) (o : Options) : List Line × Ending :=
  let opening := [Line.text (firstLine o)]
  match start base o with
  | .error (_, .halt) => (opening, .halted)
  | .error (agent, cause) => (opening, .notStarted agent cause)
  | .ok fleet =>
    if o.fits then
      let r := Run.go o (4 * o.seconds + 1) 0 { fleet, lines := opening, nextDecision := o.decisionEvery * 1000 }
      if r.fleet.halted then (r.lines, .halted) else (r.lines ++ (finalLines r.fleet).map .text, .done)
    else (opening, .halted)

end FleetCoordination.Simulation
