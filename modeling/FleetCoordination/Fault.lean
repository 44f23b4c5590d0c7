import FleetCoordination.Agent
import FleetCoordination.Decimal.Fixed
import FleetCoordination.Json.Access
import FleetCoordination.Proposal
/-!
# Faults

Why a coordination step fails, each cause with its kind and its sentence.
-/
namespace FleetCoordination

inductive TransportFault
  | closed
  | detached (agent : AgentId)
  | encode (detail : String)
  | other (detail : String)
  deriving DecidableEq

def TransportFault.message : TransportFault → String
  | .closed => "Message bus is closed"
  | .detached agent => s!"Agent {agent} is not attached to the bus"
  | .encode detail => s!"Failed to encode message: {detail}"
  | .other detail => detail

def TransportFault.kind : TransportFault → String
  | .closed => "closed"
  | .detached _ => "detached"
  | .encode _ => "encode"
  | .other _ => "other"

def TransportFault.toJson (f : TransportFault) : Json :=
  .object [("error", .string f.kind), ("message", .string f.message)]

/-- A part that a coordinated decision needs. -/
inductive Part
  | election
  | consensus
  | registry
  | propagator
  | safety
  | arbiter
  deriving DecidableEq

def Part.name : Part → String
  | election => "leader election"
  | consensus => "consensus engine"
  | registry => "peer registry"
  | propagator => "propagator"
  | safety => "safety simulator"
  | arbiter => "policy arbiter"

/-- Why an action could not be carried out on an agent. -/
inductive ExecutionFault
  | actuator (action : String)
  | earlierFailure (id : ProposalId)
  | malformedRoles
  | other (detail : String)
  deriving DecidableEq

def ExecutionFault.message : ExecutionFault → String
  | .actuator action => s!"actuator rejected '{action}'"
  | .earlierFailure id => s!"earlier application of proposal {id.text} failed"
  | .malformedRoles => "malformed role_reassignment params: ..."
  | .other detail => detail

inductive Fault
  | notLeader (leader : Option AgentId)
  | quorumTimeout (id : ProposalId) (grants quorum : Nat)
  | quorumUnavailable (alive required : Nat)
  | unsafeAction (action : String) (risk : Float) (reason : String)
  | dependencyUnavailable (part : Part)
  | idCollision (id : ProposalId)
  | proposalDenied (id : ProposalId) (grants denies quorum : Nat)
  | complianceShortfall (achieved required : Float)
  | policyRejected (detail : String)
  | transport (cause : TransportFault)
  | execution (cause : ExecutionFault)

namespace Fault

def kind : Fault → String
  | notLeader _ => "not_leader"
  | quorumTimeout .. => "quorum_timeout"
  | quorumUnavailable .. => "quorum_unavailable"
  | unsafeAction .. => "unsafe_action"
  | dependencyUnavailable _ => "dependency_unavailable"
  | idCollision _ => "proposal_id_collision"
  | proposalDenied .. => "proposal_denied"
  | complianceShortfall .. => "compliance_shortfall"
  | policyRejected _ => "policy_rejected"
  | transport _ => "transport"
  | execution _ => "execution"

def message : Fault → String
  | notLeader leader =>
    let known := leader.getD "none"
    s!"Not the leader (known leader: {known})"
  | quorumTimeout id grants quorum => s!"Proposal {id.text} timed out with {grants}/{quorum} grants"
  | quorumUnavailable alive required => s!"Quorum unavailable: {alive} alive peers, {required} required"
  | unsafeAction action risk reason =>
    s!"Action '{action}' blocked by safety simulation (risk {Decimal.fixed 4 risk}): {reason}"
  | dependencyUnavailable part => s!"Required collaborator unavailable: {part.name}"
  | idCollision id => s!"Proposal id {id.text} collides with an in-flight proposal"
  | proposalDenied id grants denies quorum =>
    s!"Proposal {id.text} denied ({grants} grants, {denies} denies, quorum {quorum})"
  | complianceShortfall achieved required =>
    s!"Propagation compliance {Decimal.fixed 2 achieved} below required {Decimal.fixed 2 required}"
  | policyRejected detail => s!"Policy rejected: {detail}"
  | transport cause => s!"Transport error: {cause.message}"
  | execution cause => s!"Execution failed: {cause.message}"

/-- A fault from its record, whose field `kind` names it; a fault of the transport by its own kind. -/
def ofRecord? (j : Json) : Option Fault :=
  let id := (Uuid.ofJson? (j.get "id")).getD (Uuid.ofNat 0)
  let detail := j.text "text"
  match j.text "kind" with
  | "not_leader" => some (notLeader (j.text? "leader"))
  | "quorum_timeout" => some (quorumTimeout id (j.nat "grants") (j.nat "quorum"))
  | "quorum_unavailable" => some (quorumUnavailable (j.nat "alive") (j.nat "required"))
  | "unsafe_action" => some (unsafeAction (j.text "action") (j.real "total_risk") (j.text "reason"))
  | "dependency_unavailable" => some (dependencyUnavailable .registry)
  | "proposal_id_collision" => some (idCollision id)
  | "proposal_denied" => some (proposalDenied id (j.nat "grants") (j.nat "denies") (j.nat "quorum"))
  | "compliance_shortfall" => some (complianceShortfall (j.real "achieved") (j.real "required"))
  | "policy_rejected" => some (policyRejected detail)
  | "transport" => some (transport (.other detail))
  | "execution" => some (execution (.other detail))
  | "closed" => some (transport .closed)
  | "detached" => some (transport (.detached (j.text "agent")))
  | "encode" => some (transport (.encode detail))
  | _ => none

def toJson (f : Fault) : Json := .object [("error", .string f.kind), ("message", .string f.message)]

/-- What a step has come to, or its fault. -/
def resultJson {α : Type} (form : α → Json) : Except Fault α → Json
  | .ok a => form a
  | .error f => f.toJson

end Fault

end FleetCoordination
