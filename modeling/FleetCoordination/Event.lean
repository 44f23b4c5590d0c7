import FleetCoordination.Decision
import FleetCoordination.Decimal.Fixed
import FleetCoordination.Proposal
/-!
# Events

What an agent announces about itself: elections, resolved proposals, commits, role
changes, blocked actions and executed decisions.
-/
namespace FleetCoordination

inductive Event
  | leaderElected (agent : AgentId) (term : Term) (time : Timestamp)
  | leaderSteppedDown (agent : AgentId) (term : Term) (time : Timestamp)
  | proposalResolved (id : ProposalId) (action outcome : String) (grants denies quorum : Nat) (time : Timestamp)
  | actionCommitted (agent : AgentId) (id : ProposalId) (action : String) (time : Timestamp)
  | roleReassigned (change : RoleChange) (id : ProposalId) (time : Timestamp)
  | actionBlocked (action : String) (risk : Float) (reason : String) (time : Timestamp)
  | decisionExecuted (decision : Uuid) (action : String) (requested effective : Scope) (success : Bool)
      (reason : String) (time : Timestamp)

namespace Event

def kind : Event → String
  | leaderElected .. => "leader_elected"
  | leaderSteppedDown .. => "leader_stepped_down"
  | proposalResolved .. => "proposal_resolved"
  | actionCommitted .. => "action_committed"
  | roleReassigned .. => "role_reassigned"
  | actionBlocked .. => "action_blocked"
  | decisionExecuted .. => "decision_executed"

/-- The fields apart from the time of the event. -/
def body : Event → List (String × Json)
  | leaderElected agent term _ | leaderSteppedDown agent term _ =>
    [("agent_id", .string agent), ("term", .ofNat term)]
  | proposalResolved id action outcome grants denies quorum _ =>
    [("proposal_id", id.toJson), ("action", .string action), ("outcome", .string outcome),
      ("grants", .ofNat grants), ("denies", .ofNat denies), ("quorum", .ofNat quorum)]
  | actionCommitted agent id action _ =>
    [("agent_id", .string agent), ("proposal_id", id.toJson), ("action", .string action)]
  | roleReassigned change id _ =>
    [("agent_id", .string change.agent), ("from", Json.ofOption Role.toJson change.old),
      ("to", change.new.toJson), ("proposal_id", id.toJson)]
  | actionBlocked action risk reason _ =>
    [("action", .string action), ("total_risk", .float risk), ("reason", .string reason)]
  | decisionExecuted decision action requested effective success reason _ =>
    [("decision_id", decision.toJson), ("action", .string action), ("requested_scope", requested.toJson),
      ("effective_scope", effective.toJson), ("success", .bool success), ("reason", .string reason)]

def time : Event → Timestamp
  | leaderElected _ _ t => t
  | leaderSteppedDown _ _ t => t
  | proposalResolved _ _ _ _ _ _ t => t
  | actionCommitted _ _ _ t => t
  | roleReassigned _ _ t => t
  | actionBlocked _ _ _ t => t
  | decisionExecuted _ _ _ _ _ _ t => t

/-- The name of the field that holds the time of the event. -/
def stampName : Event → String
  | leaderElected .. => "elected_at"
  | leaderSteppedDown .. => "stepped_down_at"
  | proposalResolved .. => "resolved_at"
  | actionCommitted .. => "committed_at"
  | roleReassigned .. => "reassigned_at"
  | actionBlocked .. => "blocked_at"
  | decisionExecuted .. => "executed_at"

def stamp (e : Event) : String × Json := (e.stampName, e.time.toJson)

/-- The event without its time. -/
def untimed (e : Event) : List (String × Json) := ("event", .string e.kind) :: e.body

def toJson (e : Event) : Json := .object (e.untimed ++ [e.stamp])

open Reading in
def reading (kind : String) : Reading Json Event := do
  if kind = "leader_elected" then
    let agent ← required "agent_id" Json.string?
    let term ← required "term" Json.word?
    let time ← required "elected_at" Timestamp.ofJson?
    pure (leaderElected agent term time)
  else if kind = "leader_stepped_down" then
    let agent ← required "agent_id" Json.string?
    let term ← required "term" Json.word?
    let time ← required "stepped_down_at" Timestamp.ofJson?
    pure (leaderSteppedDown agent term time)
  else if kind = "proposal_resolved" then
    let id ← required "proposal_id" Uuid.ofJson?
    let action ← required "action" Json.string?
    let outcome ← required "outcome" Json.string?
    let grants ← required "grants" Json.word?
    let denies ← required "denies" Json.word?
    let quorum ← required "quorum" Json.word?
    let time ← required "resolved_at" Timestamp.ofJson?
    pure (proposalResolved id action outcome grants denies quorum time)
  else if kind = "action_committed" then
    let agent ← required "agent_id" Json.string?
    let id ← required "proposal_id" Uuid.ofJson?
    let action ← required "action" Json.string?
    let time ← required "committed_at" Timestamp.ofJson?
    pure (actionCommitted agent id action time)
  else if kind = "role_reassigned" then
    let agent ← required "agent_id" Json.string?
    let old ← optional "from" Role.ofJson?
    let new ← required "to" Role.ofJson?
    let id ← required "proposal_id" Uuid.ofJson?
    let time ← required "reassigned_at" Timestamp.ofJson?
    pure (roleReassigned { agent, old, new } id time)
  else if kind = "action_blocked" then
    let action ← required "action" Json.string?
    let risk ← required "total_risk" Json.number?
    let reason ← required "reason" Json.string?
    let time ← required "blocked_at" Timestamp.ofJson?
    pure (actionBlocked action risk reason time)
  else if kind = "decision_executed" then
    let decision ← required "decision_id" Uuid.ofJson?
    let action ← required "action" Json.string?
    let requested ← required "requested_scope" Scope.ofJson?
    let effective ← required "effective_scope" Scope.ofJson?
    let success ← required "success" Json.bool?
    let reason ← required "reason" Json.string?
    let time ← required "executed_at" Timestamp.ofJson?
    pure (decisionExecuted decision action requested effective success reason time)
  else failure

def ofJson? : Json → Option Event
  | .object fields =>
    match Json.lookup "event" fields with
    | some (.string kind) => (reading kind).run (.object fields)
    | _ => none
  | .array (.string kind :: items) => (reading kind).run (.array items)
  | _ => none

/-- One line for a reader; commits are too many to be told. -/
def describe? : Event → Option String
  | leaderElected agent term _ => some s!"{agent} elected leader for term {term}"
  | leaderSteppedDown agent term _ => some s!"{agent} stepped down in term {term}"
  | proposalResolved _ action outcome grants _ quorum _ =>
    some s!"proposal {action} {outcome} ({grants}/{quorum} grants)"
  | roleReassigned change _ _ =>
    let old := (change.old.map Role.text).getD "none"
    some s!"{change.agent} {old} → {change.new.text}"
  | actionBlocked action risk _ _ => some s!"{action} blocked (risk {Decimal.fixed 3 risk})"
  | decisionExecuted _ action _ effective success reason _ =>
    let status := if success then "executed" else "failed"
    some s!"decision {action} {status} at {effective.text} scope: {reason}"
  | actionCommitted .. => none

end Event

end FleetCoordination
