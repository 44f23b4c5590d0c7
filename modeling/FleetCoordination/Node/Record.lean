import FleetCoordination.Node
/-!
# Node inputs and results as records

The inputs of a node from a record whose field `do` names them, and the ends of its jobs
in JSON.
-/
namespace FleetCoordination

/-! ## Records of messages -/

def idOf (j : Json) : ProposalId := (Uuid.ofJson? (j.get "id")).getD (Uuid.ofNat 0)

def Proposal.ofRecord (j : Json) : Proposal :=
  { id := idOf j, action := j.text "action", params := j.get "params", timeout := j.nat "timeout" 1000 }

def ProposalVote.ofRecord (j : Json) : ProposalVote :=
  { id := idOf j, voter := j.text "voter", granted := j.flag "granted" true, reason := j.text? "reason" }

def ActionAck.ofRecord (j : Json) : ActionAck :=
  { id := idOf j, agent := j.text "agent", applied := j.flag "applied" true }

namespace Node

/-- The job of carrying out a decision: at a scope and with a timeout of the record's, or
as the decision and the node have them. -/
def carryOutOf? (n : Node) (job : Nat) (j : Json) : Option Input :=
  (Decision.ofJson? (j.get "decision")).map fun d =>
    match j.text? "scope" with
    | some scope => .carryOut job d (Scope.parseLenient scope) (j.nat "timeout" 1000)
    | none => .carryOut job d d.scope n.orchestrator.defaultTimeout

/-- What a record makes happen at once, nothing if it cannot be read. A decision that is
arbitrated takes the id `decision`. -/
def inputsOf? (n : Node) (job : Nat) (decision : Uuid) (j : Json) : Option (List Input) :=
  let client := Caller.client job
  let p := Proposal.ofRecord j
  let sender := j.text "from"
  match j.text "do" with
  | "submit" => some [.engine (.submit client p)]
  | "propagate" => some [.engine (.propagate client p.id p.action p.params p.timeout)]
  | "request" =>
    some [.engine (.request client sender { id := p.id, action := p.action, params := p.params, timeoutSeconds := 1.0 })]
  | "approved" =>
    some [.engine (.approval sender
      { id := p.id, action := p.action, params := p.params, fallback := j.flag "fallback", term := j.nat "term" })]
  | "propagated" =>
    some [.engine (.delivery sender { id := p.id, action := p.action, params := p.params, term := j.nat "term" })]
  | "votes" => some ((j.list "votes").map fun v => .engine (.vote (.ofRecord v)))
  | "acks" => some ((j.list "acks").map fun a => .engine (.ack (.ofRecord a)))
  | "apply" => some [.engine (.apply client p.id p.action p.params)]
  | "execute" => (n.carryOutOf? job j).map ([·])
  | "resolve" =>
    match SafetyContext.orStandard? (j.get "context"), Policy.ofJson (j.get "local"), Policy.ofJson (j.get "global") with
    | some context, .ok here, .ok global => some [.resolve job here global context decision p.timeout]
    | _, _, _ => none
  | "cycle" => some [.review job (Timestamp.ofSeconds (j.whole "at"))]
  | _ => some []

end Node

namespace JobResult

/-- A result in full; `decision` writes the id of a decision. -/
def toJson (decision : Uuid → Json) : JobResult → Json
  | .proposal r => Fault.resultJson ProposalResult.toJson r
  | .propagation r => Fault.resultJson PropagationReport.toJson r
  | .applied r => Fault.resultJson (fun fresh => .object [("ok", .bool fresh)]) r
  | .voted => .null
  | .outcome o => .object (("decision_id", decision o.decision) :: o.summary)
  | .refused f => f.toJson
  | .report r => r.toJson

/-- What of a result does not hang on the order in which peers are heard. -/
def toBriefJson : JobResult → Json
  | .outcome o =>
    .object [("success", .bool o.success), ("effective_scope", o.effective.toJson),
      ("compliance", Json.ofOption .float o.compliance), ("failure", Json.ofOption (.string ·.kind) o.failure),
      ("proposed", .bool o.proposal.isSome), ("safety", Json.ofOption Verdict.toJson o.verdict)]
  | .proposal (.ok r) =>
    .object [("outcome", .string r.outcome.text), ("quorum", .ofNat r.quorum), ("alive", .ofNat r.alive)]
  | .proposal (.error f) => .object [("error", .string f.kind)]
  | .report r => r.written fun a => .object a.summary
  | _ => .null

end JobResult

end FleetCoordination
