import FleetCoordination.Json.Access
import FleetCoordination.Message
import FleetCoordination.Quorum
import FleetCoordination.Word
/-!
# Leader election

One agent's election machine. Time is in milliseconds on one clock. Every input gives a
new state and a list of outputs; sending and counting are left to the caller. An input that
would have the machine count past the last term ends in a panic and gives nothing.
-/
namespace FleetCoordination.Election

inductive Phase
  | follower
  | candidate
  | leader
  deriving DecidableEq, Repr

def Phase.text : Phase → String
  | follower => "FOLLOWER"
  | candidate => "CANDIDATE"
  | leader => "LEADER"

inductive Output
  | broadcast (message : Message)
  | reply (recipient : AgentId) (message : Message)
  /-- The wait runs from the first candidacy since a leader was last known. -/
  | becameLeader (term : Term) (wait : Nat)
  | steppedDown (term : Term)
  | voteGranted (candidate : AgentId) (term : Term)

/-- An output in JSON, heartbeats without their time. -/
def Output.toJson : Output → Json
  | broadcast m => .object [("broadcast", m.untimed)]
  | reply recipient m => .object [("reply", m.untimed), ("to", .string recipient)]
  | becameLeader term wait => .object [("became_leader", .ofNat term), ("convergence_ms", .ofNat wait)]
  | steppedDown term => .object [("stepped_down", .ofNat term)]
  | voteGranted candidate term => .object [("vote_granted", .string candidate), ("term", .ofNat term)]

/-- How a heartbeat is treated. -/
inductive Disposition
  | accepted
  | stale
  | ignored
  deriving DecidableEq, Repr

def Disposition.text : Disposition → String
  | accepted => "accepted"
  | stale => "stale"
  | ignored => "ignored"

structure Machine where
  self : AgentId
  startedAt : Nat
  lease : Nat
  heartbeatInterval : Nat
  phase : Phase := .follower
  term : Term := 0
  votedFor : Option AgentId := none
  leader : Option AgentId := none
  /-- Recorded supporters of the own candidacy, each once. -/
  supporters : List AgentId := []
  candidateSince : Option Nat := none
  /-- End of the lease granted to a leader that was heard. -/
  leaseUntil : Option Nat := none
  /-- When a follower or candidate starts an election. -/
  deadline : Nat
  nextHeartbeat : Nat

/-- The greatest term there is. -/
def lastTerm : Term := Word.last 64

namespace Machine

def create (self : AgentId) (now timeout lease heartbeatInterval : Nat) : Machine :=
  { self, startedAt := now, lease, heartbeatInterval, deadline := now + timeout, nextHeartbeat := now }

def isLeader (m : Machine) : Bool := m.phase = .leader

def leaseValid (m : Machine) (now : Nat) : Bool :=
  match m.leaseUntil with
  | some t => decide (now < t)
  | none => false

def uptime (m : Machine) (now : Nat) : Nat := now - m.startedAt

/-- Number of agents a majority is taken of, the machine's own always among them. -/
def electorate (m : Machine) (alive : List AgentId) : Nat :=
  if m.self ∈ alive then alive.length else alive.length + 1

/-- What the machine tells of itself at a time. -/
def summary (m : Machine) (now : Nat) : List (String × Json) :=
  [("state", .string m.phase.text), ("term", .ofNat m.term), ("leader", Json.ofOption .string m.leader),
    ("voted_for", Json.ofOption .string m.votedFor), ("is_leader", .bool m.isLeader),
    ("lease_valid", .bool (m.leaseValid now)), ("uptime", .ofNat (m.uptime now))]

def announcement (m : Machine) (now : Nat) : Output :=
  .broadcast (.heartbeat { term := m.term, leader := m.self, time := Timestamp.ofMillis now })

def hasMajority (m : Machine) (alive : List AgentId) : Bool :=
  decide (Quorum.majority (m.electorate alive) ≤ m.supporters.length)

def win (m : Machine) (now : Nat) : Machine × List Output :=
  let wait := match m.candidateSince with
    | some since => now - since
    | none => 0
  let m := { m with
    phase := .leader, leader := some m.self, leaseUntil := none,
    nextHeartbeat := now + m.heartbeatInterval, candidateSince := none }
  (m, [.becameLeader m.term wait, m.announcement now])

/-- Becomes leader once the supporters are a majority. -/
def winIfMajority (m : Machine) (now : Nat) (alive : List AgentId) : Machine × List Output :=
  if m.hasMajority alive then m.win now else (m, [])

/-- Stands for the next term, if there is one. -/
def stand (m : Machine) (now : Nat) (alive : List AgentId) (timeout : Nat) : Option (Machine × List Output) :=
  if m.term < lastTerm then
    let m := { m with
      term := m.term + 1, phase := .candidate, votedFor := some m.self, leader := none,
      supporters := [m.self], deadline := now + timeout,
      candidateSince := some (m.candidateSince.getD now) }
    let request := Output.broadcast
      (.voteRequest { term := m.term, candidate := m.self, uptime := m.uptime now })
    let (m, outputs) := m.winIfMajority now alive
    some (m, request :: outputs)
  else none

/-- Whether a tick starts an election. -/
def electionDue (m : Machine) (now : Nat) : Bool :=
  match m.phase with
  | .leader => false
  | .follower => !m.leaseValid now && decide (m.deadline ≤ now)
  | .candidate => decide (m.deadline ≤ now)

def tick (m : Machine) (now : Nat) (alive : List AgentId) (timeout : Nat) : Option (Machine × List Output) :=
  if m.phase = .leader then
    if m.nextHeartbeat ≤ now then
      some ({ m with nextHeartbeat := now + m.heartbeatInterval }, [m.announcement now])
    else some (m, [])
  else if m.electionDue now then m.stand now alive timeout
  else some (m, [])

/-- Follows a strictly higher term. -/
def adopt (m : Machine) (term : Term) : Machine × List Output :=
  ({ m with term, phase := .follower, votedFor := none, leader := none, supporters := [] },
    if m.phase = .leader then [.steppedDown m.term] else [])

/-- Moves up to the term of a message if that is higher. -/
def catchUp (m : Machine) (term : Term) : Machine × List Output :=
  if m.term < term then m.adopt term else (m, [])

/-- Whether a candidate gives way to a rival: the higher agent, then the longer uptime. -/
def outranked (m : Machine) (request : VoteRequest) (now : Nat) : Bool :=
  decide (m.self < request.candidate) ||
    (decide (m.self = request.candidate) && decide (m.uptime now < request.uptime))

/-- Whether a request of the machine's own term is granted. -/
def grants (m : Machine) (request : VoteRequest) (now : Nat) : Bool :=
  match m.phase with
  | .leader => false
  | .candidate => m.outranked request now
  | .follower =>
    match m.votedFor with
    | none => true
    | some candidate => candidate = request.candidate

def support (m : Machine) (request : VoteRequest) (now timeout : Nat) : Machine × List Output :=
  ({ m with
      phase := .follower
      supporters := if m.phase = .candidate then [] else m.supporters
      votedFor := some request.candidate
      deadline := now + max timeout m.heartbeatInterval },
    [.voteGranted request.candidate m.term,
      .reply request.candidate (.electionVote { term := m.term, voter := m.self })])

def onVoteRequest (m : Machine) (request : VoteRequest) (now timeout : Nat) : Machine × List Output :=
  if request.term < m.term then (m, [])
  else
    let (m, down) := m.catchUp request.term
    if m.grants request now then
      let (m, granted) := m.support request now timeout
      (m, down ++ granted)
    else (m, down)

def addSupporter (m : Machine) (voter : AgentId) : Machine :=
  if voter ∈ m.supporters then m else { m with supporters := m.supporters ++ [voter] }

def onVote (m : Machine) (vote : ElectionVote) (now : Nat) (alive : List AgentId) : Machine × List Output :=
  if m.term < vote.term then m.adopt vote.term
  else if vote.term < m.term ∨ m.phase ≠ .candidate ∨ vote.voter ∉ alive then (m, [])
  else (m.addSupporter vote.voter).winIfMajority now alive

def disposition (m : Machine) (beat : Heartbeat) : Disposition :=
  if beat.term < m.term then .stale
  else if beat.leader = m.self then .ignored
  else if beat.term = m.term ∧ m.phase = .leader ∧ beat.leader < m.self then .ignored
  else .accepted

/-- Follows the sender of an accepted heartbeat. -/
def follow (m : Machine) (beat : Heartbeat) (now timeout : Nat) : Machine × List Output :=
  ({ m with
      term := beat.term
      votedFor := if m.term < beat.term then none else m.votedFor
      phase := .follower, supporters := [], candidateSince := none, leader := some beat.leader,
      leaseUntil := some (now + m.lease), deadline := now + m.lease + timeout },
    if m.phase = .leader then [.steppedDown m.term] else [])

def onHeartbeat (m : Machine) (beat : Heartbeat) (now timeout : Nat) : Machine × List Output :=
  match m.disposition beat with
  | .accepted => m.follow beat now timeout
  | .stale | .ignored => (m, [])

end Machine

/-- What can happen to a machine: the alive agents and the drawn timeout come with it. -/
inductive Input
  | tick (alive : List AgentId) (timeout : Nat)
  | voteRequest (m : VoteRequest) (timeout : Nat)
  | vote (m : ElectionVote) (alive : List AgentId)
  | heartbeat (m : Heartbeat) (timeout : Nat)

/-- An input from its record, whose field `do` names it. -/
def Input.ofJson? (j : Json) : Option Input :=
  let term := j.nat "term"
  let timeout := j.nat "timeout" 200
  let alive := j.texts "alive"
  match j.text "do" with
  | "tick" => some (.tick alive timeout)
  | "request_vote" =>
    some (.voteRequest { term, candidate := j.text "candidate", uptime := j.nat "uptime" } timeout)
  | "vote" => some (.vote { term, voter := j.text "voter" } alive)
  | "heartbeat" => some (.heartbeat { term, leader := j.text "leader", time := Timestamp.epoch } timeout)
  | _ => none

def Machine.step (m : Machine) (now : Nat) : Input → Option (Machine × List Output)
  | .tick alive timeout => m.tick now alive timeout
  | .voteRequest request timeout => some (m.onVoteRequest request now timeout)
  | .vote vote alive => some (m.onVote vote now alive)
  | .heartbeat beat timeout => some (m.onHeartbeat beat now timeout)

end FleetCoordination.Election
