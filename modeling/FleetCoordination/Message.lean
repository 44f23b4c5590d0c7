import FleetCoordination.Proposal
import FleetCoordination.Timestamp
/-!
# Messages

The eight messages agents exchange, each with its topic and a JSON form tagged by its
type, and the envelope they travel in.
-/
namespace FleetCoordination

structure VoteRequest where
  term : Term
  candidate : AgentId
  uptime : Nat
  deriving DecidableEq

structure ElectionVote where
  term : Term
  voter : AgentId
  deriving DecidableEq

structure Heartbeat where
  term : Term
  leader : AgentId
  time : Timestamp
  deriving DecidableEq

structure ProposalRequest where
  id : ProposalId
  action : String
  params : Json
  timeoutSeconds : Float

structure ProposalVote where
  id : ProposalId
  voter : AgentId
  granted : Bool
  reason : Option String
  deriving DecidableEq

structure Approval where
  id : ProposalId
  action : String
  params : Json
  fallback : Bool
  term : Term

structure Propagate where
  id : ProposalId
  action : String
  params : Json
  term : Term

structure ActionAck where
  id : ProposalId
  agent : AgentId
  applied : Bool
  deriving DecidableEq

inductive Message
  | voteRequest (m : VoteRequest)
  | electionVote (m : ElectionVote)
  | heartbeat (m : Heartbeat)
  | proposalRequest (m : ProposalRequest)
  | proposalVote (m : ProposalVote)
  | approval (m : Approval)
  | propagate (m : Propagate)
  | ack (m : ActionAck)

inductive Topic
  | requestVote
  | voteGrant
  | voteDeny
  | heartbeat
  | proposalRequest
  | actionApproved
  | actionPropagate
  | actionAck
  deriving DecidableEq

namespace Topic

def text : Topic → String
  | requestVote => "coord/request_vote"
  | voteGrant => "coord/vote_grant"
  | voteDeny => "coord/vote_deny"
  | heartbeat => "coord/heartbeat"
  | proposalRequest => "coord/proposal_request"
  | actionApproved => "coord/action_approved"
  | actionPropagate => "coord/action_propagate"
  | actionAck => "coord/action_ack"

def all : List Topic :=
  [requestVote, voteGrant, voteDeny, heartbeat, proposalRequest, actionApproved, actionPropagate, actionAck]

end Topic

namespace Message

def topic : Message → Topic
  | voteRequest _ => .requestVote
  | electionVote _ => .voteGrant
  | heartbeat _ => .heartbeat
  | proposalRequest _ => .proposalRequest
  | proposalVote v => if v.granted then .voteGrant else .voteDeny
  | approval _ => .actionApproved
  | propagate _ => .actionPropagate
  | ack _ => .actionAck

/-- The value of the `type` field. -/
def tag : Message → String
  | voteRequest _ => "request_vote"
  | electionVote _ => "election_vote"
  | heartbeat _ => "heartbeat"
  | proposalRequest _ => "proposal_request"
  | proposalVote _ => "proposal_vote"
  | approval _ => "action_approved"
  | propagate _ => "action_propagate"
  | ack _ => "action_ack"

def body : Message → List (String × Json)
  | voteRequest m =>
    [("term", .ofNat m.term), ("candidate_id", .string m.candidate), ("candidate_uptime", .ofNat m.uptime)]
  | electionVote m => [("term", .ofNat m.term), ("voter_id", .string m.voter)]
  | heartbeat m => [("term", .ofNat m.term), ("leader_id", .string m.leader), ("timestamp", m.time.toJson)]
  | proposalRequest m =>
    [("proposal_id", m.id.toJson), ("action", .string m.action), ("params", m.params),
      ("timeout_seconds", .float m.timeoutSeconds)]
  | proposalVote m =>
    [("proposal_id", m.id.toJson), ("voter_id", .string m.voter), ("granted", .bool m.granted)] ++
      match m.reason with
      | some r => [("reason", .string r)]
      | none => []
  | approval m =>
    [("proposal_id", m.id.toJson), ("action", .string m.action), ("params", m.params),
      ("fallback", .bool m.fallback), ("term", .ofNat m.term)]
  | propagate m =>
    [("proposal_id", m.id.toJson), ("action", .string m.action), ("params", m.params), ("term", .ofNat m.term)]
  | ack m => [("proposal_id", m.id.toJson), ("agent_id", .string m.agent), ("applied", .bool m.applied)]

def toJson (m : Message) : Json := .object (("type", .string m.tag) :: m.body)

/-- The message without the time of a heartbeat. -/
def untimed : Message → Json
  | heartbeat m => .object [("type", .string "heartbeat"), ("term", .ofNat m.term), ("leader_id", .string m.leader)]
  | m => m.toJson

open Reading in
/-- Reads the body of the message with the given tag. -/
def reading (tag : String) : Reading Json Message := do
  if tag = "request_vote" then
    let term ← required "term" Json.word?
    let candidate ← required "candidate_id" Json.string?
    let uptime ← required "candidate_uptime" Json.word?
    pure (voteRequest { term, candidate, uptime })
  else if tag = "election_vote" then
    let term ← required "term" Json.word?
    let voter ← required "voter_id" Json.string?
    pure (electionVote { term, voter })
  else if tag = "heartbeat" then
    let term ← required "term" Json.word?
    let leader ← required "leader_id" Json.string?
    let time ← required "timestamp" Timestamp.ofJson?
    pure (heartbeat { term, leader, time })
  else if tag = "proposal_request" then
    let id ← required "proposal_id" Uuid.ofJson?
    let action ← required "action" Json.string?
    let params ← withDefault "params" .null some
    let timeoutSeconds ← required "timeout_seconds" Json.number?
    pure (proposalRequest { id, action, params, timeoutSeconds })
  else if tag = "proposal_vote" then
    let id ← required "proposal_id" Uuid.ofJson?
    let voter ← required "voter_id" Json.string?
    let granted ← required "granted" Json.bool?
    let reason ← optionalWithDefault "reason" Json.string?
    pure (proposalVote { id, voter, granted, reason })
  else if tag = "action_approved" then
    let id ← required "proposal_id" Uuid.ofJson?
    let action ← required "action" Json.string?
    let params ← withDefault "params" .null some
    let fallback ← withDefault "fallback" false Json.bool?
    let term ← withDefault "term" 0 Json.word?
    pure (approval { id, action, params, fallback, term })
  else if tag = "action_propagate" then
    let id ← required "proposal_id" Uuid.ofJson?
    let action ← required "action" Json.string?
    let params ← withDefault "params" .null some
    let term ← withDefault "term" 0 Json.word?
    pure (propagate { id, action, params, term })
  else if tag = "action_ack" then
    let id ← required "proposal_id" Uuid.ofJson?
    let agent ← required "agent_id" Json.string?
    let applied ← required "applied" Json.bool?
    pure (ack { id, agent, applied })
  else failure

/-- The tag stands in the `type` field, or first in an array. -/
def ofJson? : Json → Option Message
  | .object fields =>
    match Json.lookup "type" fields with
    | some (.string tag) => (reading tag).run (.object fields)
    | _ => none
  | .array (.string tag :: items) => (reading tag).run (.array items)
  | _ => none

end Message

structure Envelope where
  topic : String
  sender : AgentId
  recipient : Option AgentId
  sent : Timestamp
  message : Message

inductive Qos
  | atMostOnce
  | atLeastOnce
  deriving DecidableEq

def Qos.text : Qos → String
  | .atMostOnce => "at_most_once"
  | .atLeastOnce => "at_least_once"

namespace Envelope

def broadcast (sender : AgentId) (sent : Timestamp) (message : Message) : Envelope :=
  { topic := message.topic.text, sender, recipient := none, sent, message }

def direct (sender recipient : AgentId) (sent : Timestamp) (message : Message) : Envelope :=
  { topic := message.topic.text, sender, recipient := some recipient, sent, message }

/-- Whether an agent is addressed: by name, or as one of the others in a broadcast. -/
def isFor (e : Envelope) (agent : AgentId) : Bool :=
  match e.recipient with
  | some target => target = agent
  | none => e.sender ≠ agent

def toJson (e : Envelope) : Json :=
  .object ([("topic", .string e.topic), ("from", .string e.sender)] ++
    (match e.recipient with
      | some r => [("to", .string r)]
      | none => []) ++
    [("sent_at", e.sent.toJson), ("message", e.message.toJson)])

/-- An envelope without times. -/
def summary (e : Envelope) : List (String × Json) :=
  [("topic", .string e.topic), ("from", .string e.sender), ("to", Json.ofOption .string e.recipient),
    ("message", e.message.untimed)]

def ofJson? : Json → Option Envelope :=
  Reading.run do
    let topic ← Reading.required "topic" Json.string?
    let sender ← Reading.required "from" Json.string?
    let recipient ← Reading.optionalWithDefault "to" Json.string?
    let sent ← Reading.required "sent_at" Timestamp.ofJson?
    let message ← Reading.required "message" Message.ofJson?
    pure { topic, sender, recipient, sent, message }

end Envelope

end FleetCoordination
