import FleetCoordination.Metrics
import FleetCoordination.Reassignment.Planning
/-!
# Reassignment cycles

The leader samples the health of its peers, plans role changes and puts each plan to the
vote. A cycle waits for every vote, so it is given as a state: `examine` opens it, then
`raise` and `settle` alternate for every plan. `run` is the whole of it against voters
that answer at once.
-/
namespace FleetCoordination.Reassignment

structure Attempt where
  trigger : Trigger
  changes : List RoleChange
  result : Except Fault ProposalResult

def Attempt.committed (a : Attempt) : Bool :=
  match a.result with
  | .ok r => r.outcome.committed
  | .error _ => false

namespace Attempt

/-- The attempt apart from its result. -/
def summary (a : Attempt) : List (String × Json) :=
  [("trigger", .string a.trigger.text), ("changes", .array (a.changes.map RoleChange.toJson)),
    ("committed", .bool a.committed)]

def toJson (a : Attempt) : Json :=
  .object (a.summary ++ [("result", Fault.resultJson ProposalResult.toJson a.result)])

end Attempt

structure CycleReport where
  /-- False for an agent that does not lead. -/
  ran : Bool := false
  classes : List (AgentId × HealthClass) := []
  attempts : List Attempt := []

namespace CycleReport

def evaluated (r : CycleReport) : Nat := r.classes.length

/-- The report with its attempts written by `attempt`. -/
def written (attempt : Attempt → Json) (r : CycleReport) : Json :=
  .object [("ran", .bool r.ran), ("evaluated", .ofNat r.evaluated),
    ("classes", .object (r.classes.map fun e => (e.1, .string e.2.text))),
    ("attempts", .array (r.attempts.map attempt))]

def toJson : CycleReport → Json := written Attempt.toJson

end CycleReport

/-- A cycle under way. -/
structure Cycle where
  now : Timestamp
  report : CycleReport
  pending : List Plan

structure Reassigner where
  self : AgentId
  settings : ReassignmentSettings := {}
  memory : Memory := {}
  metrics : ReassignmentMetrics := {}

namespace Reassigner

/-- Counts a cycle of a leader. -/
def enter (r : Reassigner) : Reassigner := { r with metrics := { r.metrics with cycles := r.metrics.cycles + 1 } }

/-- Samples one agent. -/
def sample (s : ReassignmentSettings) (w : World) (now : Timestamp)
    (acc : Memory × List (AgentId × HealthClass)) (agent : AgentId) : Memory × List (AgentId × HealthClass) :=
  match w.health? agent with
  | some health =>
    let (memory, history) := acc.1.observe s agent health.risk now
    (memory, acc.2 ++ [(agent, history.classify)])
  | none => acc

/-- The roles of the agents that are alive. -/
def aliveRoles (w : World) (roles : RoleTable) : RoleTable :=
  ⟨w.alive.filterMap fun a => (roles.get? a).map (a, ·)⟩

/-- Opens a cycle. There is none when a window is too long for a span of time. -/
def examine (r : Reassigner) (w : World) (roles : RoleTable) (tracker : Option ComplianceTracker)
    (now : Timestamp) : Option (Reassigner × Cycle) := do
  let windows ← Windows.of? r.settings
  let pruned := r.memory.prune w.alive now windows.hysteresis
  let (memory, classes) := w.alive.foldl (sample r.settings w now) (pruned, [])
  let draft := plan { self := r.self, settings := r.settings, memory, tracker, windows, now } (aliveRoles w roles)
  let metrics := { r.metrics with debounced := r.metrics.debounced + draft.debounced }
  some ({ r with memory, metrics }, { now, report := { ran := true, classes }, pending := draft.plans })

/-- Marks the agents of a plan that is put to the vote. -/
def raise (r : Reassigner) (p : Plan) (now : Timestamp) : Reassigner :=
  { r with
    memory := r.memory.mark p.agents now
    metrics := { r.metrics with proposals := r.metrics.proposals + 1 } }

/-- Whole milliseconds from the first unhealthy sample of the failed agent. -/
def failoverDelay (m : Memory) (p : Plan) (now : Timestamp) : Option Nat := do
  let change ← p.changes.head?
  let start ← (← m.histories.get? change.agent).streakStart
  some ((now.since start).tdiv 1000000).toNat

def countResult (m : ReassignmentMetrics) (memory : Memory) (p : Plan) (now : Timestamp) (committed : Bool) :
    ReassignmentMetrics :=
  if committed then
    let m := { m with approved := m.approved + 1 }
    match p.trigger, failoverDelay memory p now with
    | .failover, some ms => { m with failover := m.failover.record (Float.ofNat ms) }
    | _, _ => m
  else { m with failed := m.failed + 1 }

/-- A demotion that is carried out wipes the record it was made for. -/
def clear (t : ComplianceTracker) (p : Plan) (committed : Bool) : ComplianceTracker :=
  if committed && p.trigger = .demotion then p.agents.foldl ComplianceTracker.reset t else t

/-- Takes note of what became of a plan. -/
def settle (r : Reassigner) (tracker : Option ComplianceTracker) (c : Cycle) (p : Plan)
    (result : Except Fault ProposalResult) : Reassigner × Option ComplianceTracker × Cycle :=
  let attempt : Attempt := { trigger := p.trigger, changes := p.changes, result }
  ({ r with metrics := countResult r.metrics r.memory p c.now attempt.committed },
    tracker.map (clear · p attempt.committed),
    { c with report := { c.report with attempts := c.report.attempts ++ [attempt] } })

/-- What a cycle reads and writes outside the reassigner: `σ` is the voters' state. -/
structure Setting (σ : Type) where
  reassigner : Reassigner
  tracker : Option ComplianceTracker
  voters : σ

/-- Puts one plan to voters that answer at once. -/
def attempt {σ : Type} (propose : σ → Plan → σ × Except Fault ProposalResult)
    (s : Setting σ × Cycle) (p : Plan) : Setting σ × Cycle :=
  let (s, c) := s
  let (voters, result) := propose s.voters p
  let (reassigner, tracker, c) := (s.reassigner.raise p c.now).settle s.tracker c p result
  ({ reassigner, tracker, voters }, c)

/-- A whole cycle. -/
def run {σ : Type} (propose : σ → Plan → σ × Except Fault ProposalResult) (s : Setting σ) (leads : Bool)
    (w : World) (roles : RoleTable) (now : Timestamp) : Option (Setting σ × CycleReport) :=
  if leads then do
    let (reassigner, c) ← s.reassigner.enter.examine w roles s.tracker now
    let (s, c) := c.pending.foldl (attempt propose) ({ s with reassigner }, { c with pending := [] })
    some (s, c.report)
  else some (s, {})

end Reassigner

end FleetCoordination.Reassignment
