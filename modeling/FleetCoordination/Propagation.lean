import FleetCoordination.Compliance
import FleetCoordination.Errand
import FleetCoordination.Message
/-!
# Propagations

A committed action is sent to every alive peer and acknowledgements are collected until
all have answered or the time is up. Acknowledgements wait in a bounded inbox and are
read once the sender's own application has ended.
-/
namespace FleetCoordination

structure PropagationReportOf (α : Type) where
  id : ProposalId
  /-- Number of agents expected to apply the action, the sender among them. -/
  expected : Nat
  acknowledged : Nat
  /-- The share of the expected agents that have acknowledged. -/
  compliance : α
  /-- In increasing order. -/
  missing : List AgentId
  deriving DecidableEq

abbrev PropagationReport := PropagationReportOf Float

namespace PropagationReport

def toJson (r : PropagationReport) : Json :=
  .object [("proposal_id", r.id.toJson), ("expected", .ofNat r.expected), ("acknowledged", .ofNat r.acknowledged),
    ("compliance", .float r.compliance), ("missing", Json.strings r.missing)]

end PropagationReport

structure Propagation (κ : Type) where
  caller : κ
  id : ProposalId
  action : String
  params : Json
  /-- The peers that were alive at the start, in increasing order, each once. -/
  targets : List AgentId
  /-- In milliseconds. -/
  deadline : Nat
  /-- The sender's own part is its application of the action. -/
  progress : Progress := .posting
  inbox : List ActionAck := []
  /-- Targets that have applied the action, each once. -/
  acknowledged : List AgentId := []

namespace Propagation
variable {κ : Type}

/-- Whether the sender's own application went well, once it has ended. -/
def own (p : Propagation κ) : Option Bool := p.progress.own

def room (p : Propagation κ) : Nat := 2 * max 1 p.targets.length

/-- The propagation once its message is out. -/
def sent (p : Propagation κ) : Propagation κ := { p with progress := .working }

/-- Queues an acknowledgement; one too many is lost. -/
def offer (p : Propagation κ) (a : ActionAck) : Propagation κ :=
  if p.inbox.length < p.room then { p with inbox := p.inbox ++ [a] } else p

/-- Takes a target's word that it has applied the action. -/
def note (p : Propagation κ) (a : ActionAck) : Propagation κ :=
  if a.applied && decide (a.agent ∈ p.targets) && decide (a.agent ∉ p.acknowledged) then
    { p with acknowledged := p.acknowledged ++ [a.agent] } else p

/-- The propagation after its next acknowledgement. -/
def read? (p : Propagation κ) : Option (Propagation κ) :=
  match p.inbox with
  | [] => none
  | a :: rest => some ({ p with inbox := rest }.note a)

/-- Whether every target has acknowledged. -/
def complete (p : Propagation κ) : Bool := decide (p.targets.length ≤ p.acknowledged.length)

/-- Whether the collection is over at a time. -/
def settled (p : Propagation κ) (now : Nat) : Bool :=
  p.own.isSome && (p.complete || (p.inbox.isEmpty && decide (p.deadline ≤ now)))

def missing (p : Propagation κ) : List AgentId := p.targets.filter (decide <| · ∉ p.acknowledged)

def report {α : Type} [Scalar α] (p : Propagation κ) : PropagationReportOf α :=
  let expected := p.targets.length + 1
  let acknowledged := p.acknowledged.length + (if p.own = some true then 1 else 0)
  { id := p.id, expected, acknowledged, compliance := Scalar.ofNat acknowledged / Scalar.ofNat expected,
    missing := p.missing }

/-- Counts the propagation for each of its targets. -/
def track (p : Propagation κ) (t : ComplianceTracker) : ComplianceTracker :=
  p.targets.foldl (fun t a => t.record a (decide (a ∈ p.acknowledged))) t

@[simp] theorem id_sent (p : Propagation κ) : p.sent.id = p.id := rfl

@[simp] theorem id_offer (p : Propagation κ) (a : ActionAck) : (p.offer a).id = p.id := by
  unfold offer; split <;> rfl

end Propagation

end FleetCoordination
