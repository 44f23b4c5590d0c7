import FleetCoordination.Fault
import FleetCoordination.Json.Access
import FleetCoordination.Message
/-!
# The network

An in-memory fabric of attached agents. Each subscription has a bounded inbox; links
can be cut in pairs or for one agent alone, and best-effort envelopes are lost while
the loss is certain.
-/
namespace FleetCoordination

structure Inbox where
  name : String
  agent : AgentId
  topics : List String
  queue : List Envelope := []
  /-- Whether the agent's side is still attached. -/
  attached : Bool := true

structure Network where
  capacity : Nat
  agents : List AgentId := []
  /-- The inboxes that are read, one of a name. -/
  inboxes : List Inbox := []
  severed : List (AgentId × AgentId) := []
  isolated : List AgentId := []
  certainLoss : Bool := false
  delivered : Nat := 0
  dropped : Nat := 0

namespace Network

def ofCapacity (capacity : Nat) : Network := { capacity := max capacity 1 }

def standardCapacity : Nat := 1024

def attach (n : Network) (agent : AgentId) : Network :=
  if agent ∈ n.agents then n else { n with agents := n.agents ++ [agent] }

def detach (n : Network) (agent : AgentId) : Network :=
  { n with
    agents := n.agents.filter (decide <| · ≠ agent)
    inboxes := n.inboxes.map fun i => if i.agent = agent then { i with attached := false } else i }

/-- Gives up reading an inbox. -/
def close (n : Network) (name : String) : Network :=
  { n with inboxes := n.inboxes.filter (decide <| ·.name ≠ name) }

/-- Opens an inbox; an older one of that name is given up. -/
def subscribe (n : Network) (agent : AgentId) (name : String) (topics : List String) : Except TransportFault Network :=
  if agent ∈ n.agents then .ok { n with inboxes := (n.close name).inboxes ++ [{ name, agent, topics }] }
  else .error (.detached agent)

/-- An unordered pair, the smaller agent first. -/
def pair (a b : AgentId) : AgentId × AgentId := if a ≤ b then (a, b) else (b, a)

def partition (n : Network) (a b : AgentId) : Network :=
  if pair a b ∈ n.severed then n else { n with severed := pair a b :: n.severed }

def heal (n : Network) (a b : AgentId) : Network :=
  { n with severed := n.severed.filter (decide <| · ≠ pair a b) }

def isolate (n : Network) (agent : AgentId) : Network :=
  if agent ∈ n.isolated then n else { n with isolated := agent :: n.isolated }

def rejoin (n : Network) (agent : AgentId) : Network :=
  { n with isolated := n.isolated.filter (decide <| · ≠ agent) }

def healAll (n : Network) : Network := { n with severed := [], isolated := [] }

/-- Only a probability of one is certain. -/
def setLoss (n : Network) (probability : Float) : Network := { n with certainLoss := decide (1.0 ≤ probability) }

def connected (n : Network) (a b : AgentId) : Bool :=
  !decide (a ∈ n.isolated) && !decide (b ∈ n.isolated) && !decide (pair a b ∈ n.severed)

/-- Whether an envelope gets through to an agent it is addressed to. -/
def reaches (n : Network) (e : Envelope) (qos : Qos) (agent : AgentId) : Bool :=
  n.connected e.sender agent && !(n.certainLoss && qos = .atMostOnce)

/-- Whether an inbox is offered an envelope. -/
def Inbox.takes (n : Network) (i : Inbox) (e : Envelope) (qos : Qos) : Bool :=
  i.attached && e.isFor i.agent && n.reaches e qos i.agent && decide (e.topic ∈ i.topics)

def deliver (n : Network) (e : Envelope) (qos : Qos) : Network :=
  let cut := n.agents.countP fun a => e.isFor a && !n.reaches e qos a
  let offered := n.inboxes.filter fun i => Inbox.takes n i e qos
  let full := offered.countP fun i => decide (n.capacity ≤ i.queue.length)
  { n with
    inboxes := n.inboxes.map fun i =>
      if Inbox.takes n i e qos && decide (i.queue.length < n.capacity) then { i with queue := i.queue ++ [e] } else i
    delivered := n.delivered + (offered.length - full)
    dropped := n.dropped + cut + full }

/-- Publishes through the handle of `agent`, which becomes the sender. -/
def publish (n : Network) (agent : AgentId) (e : Envelope) (qos : Qos) : Except TransportFault Network :=
  if agent ∈ n.agents then .ok (n.deliver { e with sender := agent } qos) else .error (.detached agent)

def inbox? (n : Network) (name : String) : Option Inbox := n.inboxes.find? fun i => i.name = name

/-- Empties an inbox. -/
def drain (n : Network) (name : String) : Network :=
  { n with inboxes := n.inboxes.map fun i => if i.name = name then { i with queue := [] } else i }

/-! ## Operations -/

inductive Operation
  | attach (agent : AgentId)
  | detach (agent : AgentId)
  | subscribe (agent : AgentId) (inbox : String) (topics : List String)
  | publish (agent : AgentId) (envelope : Envelope) (qos : Qos)
  | partition (a b : AgentId)
  | heal (a b : AgentId)
  | isolate (agent : AgentId)
  | rejoin (agent : AgentId)
  | healAll
  | loss (probability : Float)
  | drain (inbox : String)
  | close (inbox : String)

/-- What an operation answers. -/
inductive Reply
  | nothing
  | handle (agent : AgentId)
  | accepted
  | refused (f : TransportFault)
  /-- The envelopes of an inbox, and whether no more will come. -/
  | received (envelopes : List Envelope) (closed : Bool)

def operate (n : Network) : Operation → Network × Reply
  | .attach agent => (n.attach agent, .handle agent)
  | .detach agent => (n.detach agent, .nothing)
  | .subscribe agent inbox topics =>
    match n.subscribe agent inbox topics with
    | .ok n => (n, .accepted)
    | .error f => (n, .refused f)
  | .publish agent envelope qos =>
    match n.publish agent envelope qos with
    | .ok n => (n, .accepted)
    | .error f => (n, .refused f)
  | .partition a b => (n.partition a b, .nothing)
  | .heal a b => (n.heal a b, .nothing)
  | .isolate agent => (n.isolate agent, .nothing)
  | .rejoin agent => (n.rejoin agent, .nothing)
  | .healAll => (n.healAll, .nothing)
  | .loss probability => (n.setLoss probability, .nothing)
  | .drain inbox =>
    match n.inbox? inbox with
    | some i => (n.drain inbox, .received i.queue !i.attached)
    | none => (n, .nothing)
  | .close inbox => (n.close inbox, .nothing)

/-- An envelope to be published, from its record. -/
def Operation.envelope? (agent : AgentId) (j : Json) : Option Envelope := do
  let message ← Message.ofJson? (j.get "message")
  some { topic := j.text "topic" message.topic.text, sender := j.text "from" agent, recipient := j.text? "to",
         sent := Timestamp.epoch, message }

/-- An operation from its record, whose field `do` names it. -/
def Operation.ofJson? (j : Json) : Option Operation :=
  let agent := j.text "agent"
  let inbox := j.text "inbox"
  match j.text "do" with
  | "attach" => some (.attach agent)
  | "detach" => some (.detach agent)
  | "subscribe" => some (.subscribe agent inbox (j.texts "topics"))
  | "publish" =>
    (envelope? agent j).map (.publish agent · (if j.text "qos" = "at_most_once" then .atMostOnce else .atLeastOnce))
  | "partition" => some (.partition (j.text "a") (j.text "b"))
  | "heal" => some (.heal (j.text "a") (j.text "b"))
  | "isolate" => some (.isolate agent)
  | "rejoin" => some (.rejoin agent)
  | "heal_all" => some .healAll
  | "loss" => some (.loss (j.real "probability"))
  | "drain" => some (.drain inbox)
  | "close" => some (.close inbox)
  | _ => none

def Reply.toJson : Reply → Json
  | nothing => .null
  | handle agent => .string agent
  | accepted => .object [("ok", .bool true)]
  | refused f => f.toJson
  | received envelopes closed =>
    .object [("received", .array (envelopes.map fun e => .object e.summary)), ("closed", .bool closed)]

end Network

end FleetCoordination
