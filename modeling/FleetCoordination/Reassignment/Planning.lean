import FleetCoordination.Reassignment
/-!
# Planning role changes

Four rules are tried in turn, each on the roles that the rules before it leave behind:
failover, compliance demotion, safe mode, recovery. An agent is named at most once.
-/
namespace FleetCoordination.Reassignment

/-- What the rules look at. -/
structure Outlook where
  self : AgentId
  settings : ReassignmentSettings
  memory : Memory
  tracker : Option ComplianceTracker
  windows : Windows
  now : Timestamp

namespace Outlook

def debounced (o : Outlook) (agent : AgentId) : Bool :=
  match o.memory.named.get? agent with
  | some t => decide (o.now.since t < o.windows.hysteresis)
  | none => false

/-- Length of the unhealthy streak of an agent. -/
def streak (o : Outlook) (agent : AgentId) : Nat :=
  match o.memory.histories.get? agent with
  | some h => h.streak
  | none => 0

def latest (o : Outlook) (agent : AgentId) : Option Float :=
  (o.memory.histories.get? agent).bind HealthHistory.latest

def healthy (o : Outlook) (agent : AgentId) : Bool :=
  match o.latest agent with
  | some risk => decide (risk < o.settings.unhealthyRisk)
  | none => false

def degraded (o : Outlook) (agent : AgentId) : Bool := decide (o.settings.degradedThreshold ≤ o.streak agent)

def recovered (o : Outlook) (agent : AgentId) : Bool :=
  match (o.memory.histories.get? agent).bind (·.recoveredFor o.now) with
  | some duration => decide (o.windows.recovery ≤ duration)
  | none => false

end Outlook

/-- The plans made so far and the roles they lead to. -/
structure Draft where
  roles : RoleTable
  claimed : List AgentId := []
  plans : List Plan := []
  debounced : Nat := 0

namespace Draft

def holders (d : Draft) (role : Role) : List AgentId := (d.roles.filter fun _ r => r = role).keys

def add (d : Draft) (p : Plan) : Draft :=
  { d with roles := reassign d.roles p.changes, claimed := d.claimed ++ p.agents, plans := d.plans ++ [p] }

/-- Whether an agent may be named; one that is held back by its window is counted. -/
def gate (d : Draft) (o : Outlook) (agent : AgentId) : Draft × Bool :=
  if agent ∈ d.claimed then (d, false)
  else if o.debounced agent then ({ d with debounced := d.debounced + 1 }, false)
  else (d, true)

/-- Adds a plan if its agent may be named. -/
def addIfFree (d : Draft) (o : Outlook) (agent : AgentId) (p : Plan) : Draft :=
  let (d, free) := d.gate o agent
  if free then d.add p else d

end Draft

/-! ## Failover -/

/-- By risk and then by agent. -/
def fitter (a b : AgentId × Float) : Bool :=
  match Scalar.order a.2 b.2 with
  | .lt => true
  | .gt => false
  | .eq => decide (a.1 < b.1)

/-- The least of some agents with their risks. -/
def fittest : List (AgentId × Float) → Option (AgentId × Float)
  | [] => none
  | a :: rest =>
    match fittest rest with
    | some b => if fitter b a then some b else some a
    | none => some a

/-- Healthy agents of a role that are free to be named, with their latest risks. -/
def candidates (o : Outlook) (d : Draft) (role : Role) : List (AgentId × Float) :=
  (d.holders role).filterMap fun a =>
    if o.healthy a && decide (a ∉ d.claimed) && !o.debounced a then (o.latest a).map (a, ·) else none

/-- A backup if there is one, else a standby agent. -/
def replacement (o : Outlook) (d : Draft) : Option (AgentId × Role) :=
  [Role.backup, Role.standby].findSome? fun role => (fittest (candidates o d role)).map fun c => (c.1, role)

def failoverPlan (o : Outlook) (primary successor : AgentId) (role : Role) : Plan :=
  { trigger := .failover
    changes := [⟨primary, some .primary, role⟩, ⟨successor, some role, .primary⟩]
    reason := s!"{o.streak primary} consecutive unhealthy samples on primary {primary}" }

def failover (o : Outlook) (d : Draft) (primary : AgentId) : Draft :=
  if o.degraded primary then
    let (d, free) := d.gate o primary
    match free, replacement o d with
    | true, some (successor, role) => d.add (failoverPlan o primary successor role)
    | _, _ => d
  else d

/-! ## Compliance demotion -/

def demotionPlan (agent : AgentId) (role : Role) (rate : Float) (observed : Nat) : Plan :=
  { trigger := .demotion
    changes := [⟨agent, some role, .standby⟩]
    reason := s!"propagation compliance {Decimal.fixed 2 rate} over {observed} propagations" }

def demote (o : Outlook) (t : ComplianceTracker) (d : Draft) (entry : AgentId × Role) : Draft :=
  let (agent, role) := entry
  match t.compliance? agent with
  | some (rate, observed) =>
    if observed < o.settings.minPropagations ∨ o.settings.complianceThreshold ≤ rate then d
    else d.addIfFree o agent (demotionPlan agent role rate observed)
  | none => d

/-! ## Safe mode -/

def safeModePlan (o : Outlook) (agent : AgentId) (role : Role) : Plan :=
  { trigger := .safeMode
    changes := [⟨agent, some role, .safeMode⟩]
    reason := s!"{o.streak agent} consecutive unhealthy samples" }

def retire (o : Outlook) (d : Draft) (entry : AgentId × Role) : Draft :=
  d.addIfFree o entry.1 (safeModePlan o entry.1 entry.2)

/-! ## Recovery -/

/-- How many agents may hold a role; nothing means any number. -/
def capacity (s : ReassignmentSettings) : Role → Option Nat
  | .primary => some 1
  | .backup => some s.backupCapacity
  | .standby | .safeMode => none

def vacant (s : ReassignmentSettings) (d : Draft) (role : Role) : Bool :=
  match capacity s role with
  | some n => decide ((d.holders role).length < n)
  | none => true

/-- The first holder of a role that is degraded and free to be named. -/
def displaceable (o : Outlook) (d : Draft) (role : Role) : Option AgentId :=
  (d.holders role).find? fun a => o.degraded a && decide (a ∉ d.claimed) && !o.debounced a

def recoveryPlan (o : Outlook) (agent : AgentId) (role target : Role) (displaced : Option AgentId) : Plan :=
  { trigger := .recovery
    changes := ⟨agent, some role, target⟩ :: displaced.toList.map fun h => ⟨h, some target, role⟩
    reason := s!"risk below {Decimal.fixed 2 o.settings.recoveryRisk} for the recovery window" }

def promote (o : Outlook) (d : Draft) (entry : AgentId × Role) : Draft :=
  let (agent, role) := entry
  match role.promotion with
  | none => d
  | some target =>
    if agent ∈ d.claimed then d
    else if vacant o.settings d target then d.addIfFree o agent (recoveryPlan o agent role target none)
    else
      match displaceable o d target with
      | some holder => d.addIfFree o agent (recoveryPlan o agent role target (some holder))
      | none => d

/-! ## All rules -/

def failovers (o : Outlook) (d : Draft) : Draft := (d.holders .primary).foldl (failover o) d

def demotions (o : Outlook) (d : Draft) : Draft :=
  match o.tracker with
  | some t =>
    (d.roles.filter fun a r => (r = .primary || r = .backup) && a ≠ o.self).entries.foldl (demote o t) d
  | none => d

def retirements (o : Outlook) (d : Draft) : Draft :=
  (d.roles.filter fun a r =>
    (r = .backup || r = .standby) && decide (o.settings.effectiveSafeMode ≤ o.streak a)).entries.foldl (retire o) d

def promotions (o : Outlook) (d : Draft) : Draft :=
  (d.roles.filter fun a _ => o.recovered a).entries.foldl (promote o) d

/-- The plans for the given roles of the alive agents. -/
def plan (o : Outlook) (roles : RoleTable) : Draft :=
  promotions o (retirements o (demotions o (failovers o { roles })))

end FleetCoordination.Reassignment
