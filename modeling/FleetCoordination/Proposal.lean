import FleetCoordination.Agent
import FleetCoordination.Uuid
/-!
# Proposals

What a leader puts to the vote, what becomes of it, and the one action the fleet
interprets itself: a reassignment of roles.
-/
namespace FleetCoordination

abbrev ProposalId := Uuid

abbrev Term := Nat

structure Proposal where
  id : ProposalId
  action : String
  params : Json
  /-- Milliseconds. -/
  timeout : Nat

inductive Outcome
  | approved
  | fallbackApproved
  | denied
  | timedOut
  deriving DecidableEq, Repr, Inhabited

namespace Outcome

def committed : Outcome → Bool
  | approved | fallbackApproved => true
  | denied | timedOut => false

def text : Outcome → String
  | approved => "approved"
  | fallbackApproved => "fallback_approved"
  | denied => "denied"
  | timedOut => "timed_out"

def all : List Outcome := [approved, fallbackApproved, denied, timedOut]
def ofText? (s : String) : Option Outcome := all.find? (·.text = s)

end Outcome

structure ProposalResult where
  id : ProposalId
  outcome : Outcome
  grants : Nat
  denies : Nat
  quorum : Nat
  alive : Nat
  deriving DecidableEq

namespace ProposalResult

def toJson (r : ProposalResult) : Json :=
  .object [("proposal_id", r.id.toJson), ("outcome", .string r.outcome.text), ("grants", .ofNat r.grants),
    ("denies", .ofNat r.denies), ("quorum", .ofNat r.quorum), ("alive", .ofNat r.alive)]

end ProposalResult

structure RoleChange where
  agent : AgentId
  old : Option Role
  new : Role
  deriving DecidableEq, Repr

namespace RoleChange

def toJson (c : RoleChange) : Json :=
  .object [("agent_id", .string c.agent), ("from", Json.ofOption Role.toJson c.old), ("to", c.new.toJson)]

def ofJson? : Json → Option RoleChange :=
  Reading.run do
    let agent ← Reading.required "agent_id" Json.string?
    let old ← Reading.optional "from" Role.ofJson?
    let new ← Reading.required "to" Role.ofJson?
    pure { agent, old, new }

end RoleChange

structure RoleReassignment where
  changes : List RoleChange
  reason : String
  deriving DecidableEq, Repr

namespace RoleReassignment

def action : String := "role_reassignment"

def agents (r : RoleReassignment) : List AgentId := r.changes.map (·.agent)

def toJson (r : RoleReassignment) : Json :=
  .object [("changes", .array (r.changes.map RoleChange.toJson)), ("reason", .string r.reason)]

def ofJson? : Json → Option RoleReassignment :=
  Reading.run do
    let changes ← Reading.required "changes" (Reading.list? RoleChange.ofJson?)
    let reason ← Reading.required "reason" Json.string?
    pure { changes, reason }

end RoleReassignment

end FleetCoordination
