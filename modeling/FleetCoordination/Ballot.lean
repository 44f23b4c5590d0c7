import FleetCoordination.Agent
import FleetCoordination.Text.Sorted
/-!
# Ballots

The votes of one proposal round. Only agents that were alive at its start may vote and
the first vote of each counts.
-/
namespace FleetCoordination

structure Ballot where
  /-- In increasing order, each once. -/
  eligible : List AgentId
  quorum : Nat
  votes : List (AgentId × Bool) := []

namespace Ballot

inductive Record
  | accepted
  | duplicate
  | equivocation
  | ineligible
  deriving DecidableEq, Repr

def Record.text : Record → String
  | accepted => "accepted"
  | duplicate => "duplicate"
  | equivocation => "equivocation"
  | ineligible => "ineligible"

inductive Status
  | pending
  | approved
  | rejected
  deriving DecidableEq, Repr

def Status.text : Status → String
  | pending => "pending"
  | approved => "approved"
  | rejected => "rejected"

def open_ (eligible : List AgentId) (quorum : Nat) : Ballot := { eligible := Text.sorted eligible, quorum }

def vote? (b : Ballot) (voter : AgentId) : Option Bool := b.votes.lookup voter

/-- What a vote is recorded as. -/
def judge (b : Ballot) (voter : AgentId) (granted : Bool) : Record :=
  if voter ∈ b.eligible then
    match b.vote? voter with
    | some earlier => if earlier = granted then .duplicate else .equivocation
    | none => .accepted
  else .ineligible

def record (b : Ballot) (voter : AgentId) (granted : Bool) : Ballot :=
  match b.judge voter granted with
  | .accepted => { b with votes := b.votes ++ [(voter, granted)] }
  | _ => b

def grants (b : Ballot) : Nat := b.votes.countP (·.2)
def denies (b : Ballot) : Nat := b.votes.countP (!·.2)
def outstanding (b : Ballot) : Nat := b.eligible.length - b.votes.length

def status (b : Ballot) : Status :=
  if b.quorum ≤ b.grants then .approved
  else if b.grants + b.outstanding < b.quorum then .rejected
  else .pending

/-- Where the ballot stands. -/
def summary (b : Ballot) : List (String × Json) :=
  [("grants", .ofNat b.grants), ("denies", .ofNat b.denies), ("outstanding", .ofNat b.outstanding),
    ("status", .string b.status.text)]

@[simp] theorem eligible_record (b : Ballot) (voter : AgentId) (granted : Bool) :
    (b.record voter granted).eligible = b.eligible := by
  unfold record; split <;> rfl

@[simp] theorem quorum_record (b : Ballot) (voter : AgentId) (granted : Bool) :
    (b.record voter granted).quorum = b.quorum := by
  unfold record; split <;> rfl

end Ballot

end FleetCoordination
