import FleetCoordination.Fault
import FleetCoordination.Metrics
import FleetCoordination.Policy
import FleetCoordination.Text.Sorted
/-!
# Arbitration

Which of two policies wins, which action a group of agents prefers, and which policies
the hard constraints in force still allow.
-/
namespace FleetCoordination.Arbitration
variable {α : Type}

inductive Source
  | here
  | global
  deriving DecidableEq, Repr

def Source.text : Source → String
  | here => "local"
  | global => "global"

inductive Reason
  | safetyPriority
  | higherScore
  | moreRecent
  | localTieBreak
  deriving DecidableEq, Repr

def Reason.text : Reason → String
  | safetyPriority => "safety_priority"
  | higherScore => "higher_score"
  | moreRecent => "more_recent"
  | localTieBreak => "local_tie_break"

/-- The spelling used inside sentences. -/
def Reason.name : Reason → String
  | safetyPriority => "SafetyPriority"
  | higherScore => "HigherScore"
  | moreRecent => "MoreRecent"
  | localTieBreak => "LocalTieBreak"

structure ResolutionOf (α : Type) where
  winner : PolicyOf α
  source : Source
  reason : Reason
  localScore : α
  globalScore : α

structure PreferenceOf (α : Type) where
  action : String
  aggregate : α
  supporters : List AgentId
  representative : PolicyOf α

def isSafety (p : PolicyOf α) : Bool := p.priority = .safety

section Rules
variable [Scalar α]

/-- Scores closer than this count as equal. -/
def tolerance : α := 1e-9

def weighted (w : WeightsOf α) (p : PolicyOf α) : α := p.score * w.weight p.priority

def differ (a b : α) : Bool := decide (tolerance < Scalar.magnitude (a - b))

def choose (w : WeightsOf α) (here global : PolicyOf α) : Source × Reason :=
  let a := weighted w here
  let b := weighted w global
  if isSafety here != isSafety global then
    (if isSafety here then .here else .global, .safetyPriority)
  else if differ a b then (if b < a then .here else .global, .higherScore)
  else if here.time ≠ global.time then
    (if global.time.before here.time then .here else .global, .moreRecent)
  else if global.scope = .here ∧ here.scope ≠ .here then (.global, .localTieBreak)
  else (.here, .localTieBreak)

def resolve (w : WeightsOf α) (here global : PolicyOf α) : ResolutionOf α :=
  let (source, reason) := choose w here global
  { winner := match source with | .here => here | .global => global
    source, reason, localScore := weighted w here, globalScore := weighted w global }

/-! ## Groups of policies -/

/-- The policies for one action. -/
structure GroupOf (α : Type) where
  action : String
  members : List (PolicyOf α)
  aggregate : α
  safety : Bool

/-- One group per action, by increasing action. -/
def groups (w : WeightsOf α) (policies : List (PolicyOf α)) : List (GroupOf α) :=
  (Text.sorted (policies.map (·.action))).map fun action =>
    let members := policies.filter (·.action = action)
    { action, members, aggregate := Scalar.sum (members.map (weighted w)), safety := members.any isSafety }

/-- Whether a later group replaces the best one so far. -/
def replaces (best next : GroupOf α) : Bool :=
  if differ next.aggregate best.aggregate then decide (best.aggregate < next.aggregate)
  else next.safety && !best.safety

def strongest : List (GroupOf α) → Option (GroupOf α)
  | [] => none
  | g :: rest => some (rest.foldl (fun best next => if replaces best next then next else best) g)

/-- The last policy of greatest weighted score. -/
def representative (w : WeightsOf α) : List (PolicyOf α) → Option (PolicyOf α)
  | [] => none
  | p :: rest =>
    some (rest.foldl (fun best next =>
      if (Scalar.order (weighted w best) (weighted w next)).isLE then next else best) p)

def prefer (w : WeightsOf α) (policies : List (PolicyOf α)) : Option (PreferenceOf α) := do
  let g ← strongest (groups w policies)
  let p ← representative w g.members
  some { action := g.action, aggregate := g.aggregate, supporters := Text.sorted (g.members.map (·.agent)),
         representative := p }

/-- The share of policies that disagree with the most frequent action. -/
def conflict (policies : List (PolicyOf α)) : α :=
  if policies.isEmpty then 0.0
  else
    let counts := policies.map fun p => policies.countP (·.action = p.action)
    let plurality := counts.foldl max 0
    Scalar.ofNat (policies.length - plurality) / Scalar.ofNat policies.length

end Rules

/-! ## JSON forms -/

def ResolutionOf.toJson (r : ResolutionOf Float) : Json :=
  .object [("winner", Policy.toJson r.winner), ("source", .string r.source.text), ("reason", .string r.reason.text),
    ("local_score", .float r.localScore), ("global_score", .float r.globalScore)]

def PreferenceOf.toJson (p : PreferenceOf Float) : Json :=
  .object [("action", .string p.action), ("aggregate_score", .float p.aggregate),
    ("supporters", Json.strings p.supporters), ("representative", Policy.toJson p.representative)]

/-! ## The arbiter -/

/-- Whether a policy may be carried out while `active` constraints are in force. -/
def permits (p : PolicyOf α) (active : List String) : Bool := isSafety p || active.isEmpty

def rejectionText (p : PolicyOf α) (active : List String) : String :=
  let listed := Text.join ", " active
  s!"{p.priority.name} policy '{p.action}' violates active constraints: {listed}"

structure Arbiter where
  weights : Weights
  metrics : ArbitrationMetrics := {}

namespace Arbiter

def ofWeights (weights : Weights) : Except (WeightsError Float) Arbiter :=
  match weights.fault? with
  | some e => .error e
  | none => .ok { weights }

def setWeights (a : Arbiter) (weights : Weights) : Except (WeightsError Float) Arbiter :=
  match weights.fault? with
  | some e => .error e
  | none => .ok { a with weights, metrics := { a.metrics with weightUpdates := a.metrics.weightUpdates + 1 } }

def countResolution (m : ArbitrationMetrics) (source : Source) (reason : Reason) : ArbitrationMetrics :=
  { m with
    resolutions := m.resolutions + 1
    safetyOverrides := if reason = .safetyPriority then m.safetyOverrides + 1 else m.safetyOverrides
    localWins := if source = .here then m.localWins + 1 else m.localWins
    globalWins := if source = .global then m.globalWins + 1 else m.globalWins }

def resolve (a : Arbiter) (here global : Policy) : Arbiter × ResolutionOf Float :=
  let r := Arbitration.resolve a.weights here global
  ({ a with metrics := countResolution a.metrics r.source r.reason }, r)

def conflict (a : Arbiter) (policies : List Policy) : Arbiter × Float :=
  let score := Arbitration.conflict policies
  (if policies.isEmpty then a else { a with metrics := { a.metrics with conflictScore := score } }, score)

def prefer (a : Arbiter) (policies : List Policy) : Arbiter × Option (PreferenceOf Float) :=
  ((a.conflict policies).1, Arbitration.prefer a.weights policies)

def check (a : Arbiter) (p : Policy) (context : SafetyContext) : Arbiter × Except Fault Unit :=
  if permits p context.active then (a, .ok ())
  else
    ({ a with metrics := { a.metrics with complianceRejections := a.metrics.complianceRejections + 1 } },
      .error (.policyRejected (rejectionText p context.active)))

end Arbiter

end FleetCoordination.Arbitration
