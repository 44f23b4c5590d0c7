import FleetCoordination.Ballot
import FleetCoordination.Errand
import FleetCoordination.Message
/-!
# Proposal rounds

One proposal from its request to its outcome. Once the request is out the proposer casts
its own vote; votes of others wait in a bounded inbox and are read one by one. A round
that knows its outcome is over. `κ` tells who waits for it.
-/
namespace FleetCoordination

structure Round (κ : Type) where
  caller : κ
  proposal : Proposal
  /-- The proposer's term when the round began. -/
  term : Term
  ballot : Ballot
  /-- In milliseconds. -/
  deadline : Nat
  /-- The proposer's own part is its vote. -/
  progress : Progress := .posting
  inbox : List ProposalVote := []

namespace Round
variable {κ : Type}

def id (r : Round κ) : ProposalId := r.proposal.id

/-- The proposer's own vote, once it is cast. -/
def own (r : Round κ) : Option Bool := r.progress.own

/-- Number of agents that were alive when the round began. -/
def alive (r : Round κ) : Nat := r.ballot.eligible.length

def room (r : Round κ) : Nat := 2 * r.alive

/-- The round once its request is out. -/
def sent (r : Round κ) : Round κ := { r with progress := .working }

/-- Queues a vote; one too many is lost. -/
def offer (r : Round κ) (v : ProposalVote) : Round κ :=
  if r.inbox.length < r.room then { r with inbox := r.inbox ++ [v] } else r

def castOwn (r : Round κ) (self : AgentId) (granted : Bool) : Round κ :=
  { r with ballot := r.ballot.record self granted, progress := .reading granted }

/-- The round after its next vote, and what that vote was recorded as. -/
def read? (r : Round κ) : Option (Round κ × Ballot.Record) :=
  match r.inbox with
  | [] => none
  | v :: rest =>
    some ({ r with inbox := rest, ballot := r.ballot.record v.voter v.granted }, r.ballot.judge v.voter v.granted)

/-- What the votes that were read decide. -/
def decided? (r : Round κ) : Option Outcome :=
  match r.own, r.ballot.status with
  | some _, .approved => some .approved
  | some _, .rejected => some .denied
  | _, _ => none

/-- What a round without an answer in time comes to: with the fallback on, the proposer
follows its own vote. -/
def lapse (fallback : Bool) (own : Bool) : Outcome := if fallback && own then .fallbackApproved else .timedOut

/-- The outcome at a time: decided by votes, or lapsed once nothing is left to read. -/
def outcome? (r : Round κ) (fallback : Bool) (now : Nat) : Option Outcome :=
  match r.decided? with
  | some o => some o
  | none =>
    match r.own with
    | some own => if r.inbox.isEmpty && decide (r.deadline ≤ now) then some (lapse fallback own) else none
    | none => none

def result (r : Round κ) (outcome : Outcome) : ProposalResult :=
  { id := r.id, outcome, grants := r.ballot.grants, denies := r.ballot.denies, quorum := r.ballot.quorum,
    alive := r.alive }

/-- The request for votes. -/
def request (p : Proposal) : ProposalRequest :=
  { id := p.id, action := p.action, params := p.params,
    timeoutSeconds := Float.ofNat (p.timeout / 1000) + Float.ofNat (p.timeout % 1000 * 1000000) / 1e9 }

/-- The commit of a round that came to an outcome. -/
def approval (r : Round κ) (outcome : Outcome) : Approval :=
  { id := r.id, action := r.proposal.action, params := r.proposal.params,
    fallback := outcome = .fallbackApproved, term := r.term }

@[simp] theorem id_offer (r : Round κ) (v : ProposalVote) : (r.offer v).id = r.id := by
  unfold offer; split <;> rfl

@[simp] theorem id_sent (r : Round κ) : r.sent.id = r.id := rfl

@[simp] theorem own_sent (r : Round κ) : r.sent.own = none := rfl

@[simp] theorem own_castOwn (r : Round κ) (self : AgentId) (granted : Bool) :
    (r.castOwn self granted).own = some granted := rfl

@[simp] theorem id_castOwn (r : Round κ) (self : AgentId) (granted : Bool) : (r.castOwn self granted).id = r.id := rfl

end Round

end FleetCoordination
