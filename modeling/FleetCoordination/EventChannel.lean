import FleetCoordination.Event
import FleetCoordination.Table
import FleetCoordination.Word
/-!
# The event channel

Every subscriber reads every event published since it subscribed, as long as it keeps
up: the channel holds the last events only, and a subscriber that fell behind is told
once how many it lost.
-/
namespace FleetCoordination

structure Published where
  source : AgentId
  event : Event

namespace Published

/-- The event without its time, beside its source. -/
def toJson (p : Published) : Json := .object (("source", .string p.source) :: p.event.untimed)

/-- The event in one terse line. -/
def line (p : Published) : String :=
  let kind := p.event.kind
  match p.event with
  | .leaderElected agent term _ | .leaderSteppedDown agent term _ => s!"{kind} {agent} {term}"
  | .proposalResolved _ action outcome _ _ quorum _ => s!"{kind} {p.source} {action} {outcome} quorum {quorum}"
  | .actionCommitted agent _ action _ => s!"{kind} {agent} {action}"
  | .roleReassigned c _ _ =>
    let old := (c.old.map Role.text).getD "none"
    s!"{kind} {p.source} {c.agent} {old} {c.new.text}"
  | .actionBlocked action _ reason _ => s!"{kind} {p.source} {action}: {reason}"
  | .decisionExecuted _ action _ effective success _ _ => s!"{kind} {p.source} {action} {effective.text} {success}"

end Published

/-- A reading position, with the one agent that is listened to, if there is one. -/
structure EventCursor where
  next : Nat
  source : Option AgentId := none

structure EventChannel where
  capacity : Nat
  /-- Events ever published to a subscriber. -/
  total : Nat := 0
  /-- The last events, oldest first. -/
  kept : List Published := []
  readers : Table String EventCursor := {}
  closed : Bool := false

inductive EventFault
  | closed
  | empty
  | lagged (lost : Nat)
  deriving DecidableEq

namespace EventFault

def kind : EventFault → String
  | closed => "closed"
  | empty => "empty"
  | lagged _ => "lagged"

def message : EventFault → String
  | closed => "Event bus is closed"
  | empty => "No events available"
  | lagged lost => s!"Receiver lagged by {lost} events (events were dropped)"

end EventFault

namespace EventChannel

/-- The least power of two that is not below `n`. -/
def powerOfTwo (n : Nat) : Nat := if n ≤ 1 then 1 else Word.count ((n - 1).log2 + 1)

def standardCapacity : Nat := 1000

/-- A channel has room for one event at least and for no more than can be laid out in a
machine's memory. -/
def ofCapacity? (capacity : Nat) : Option EventChannel :=
  if capacity = 0 ∨ Word.count 55 < capacity then none else some { capacity := powerOfTwo capacity }

/-- An event that nobody reads is not kept. -/
def publish (c : EventChannel) (p : Published) : EventChannel :=
  if c.readers.size = 0 then c
  else { c with total := c.total + 1, kept := (c.kept ++ [p]).drop (c.kept.length + 1 - c.capacity) }

/-- Adds a reader; an older one of that name is given up. -/
def subscribe (c : EventChannel) (name : String) (source : Option AgentId) : EventChannel :=
  { c with readers := c.readers.insert name { next := c.total, source } }

def unsubscribe (c : EventChannel) (name : String) : EventChannel := { c with readers := c.readers.erase name }

def close (c : EventChannel) : EventChannel := { c with closed := true }

/-- Position of the oldest event that is still kept. -/
def oldest (c : EventChannel) : Nat := c.total - c.kept.length

def EventCursor.wants (r : EventCursor) (p : Published) : Bool :=
  match r.source with
  | some agent => p.source = agent
  | none => true

/-- Reads on through `events`, the ones from the cursor's position, to the first wanted. -/
def seek (closed : Bool) (r : EventCursor) : List Published → EventCursor × Except EventFault Published
  | [] => (r, .error (if closed then .closed else .empty))
  | p :: rest =>
    let r' := { r with next := r.next + 1 }
    if EventCursor.wants r p then (r', .ok p) else seek closed r' rest

def advance (c : EventChannel) (r : EventCursor) : EventCursor × Except EventFault Published :=
  if r.next < c.oldest then ({ r with next := c.oldest }, .error (.lagged (c.oldest - r.next)))
  else seek c.closed r (c.kept.drop (r.next - c.oldest))

/-- The next event of a reader; nothing if there is no reader of that name. -/
def receive (c : EventChannel) (name : String) : EventChannel × Option (Except EventFault Published) :=
  match c.readers.get? name with
  | some r =>
    let (r, got) := c.advance r
    ({ c with readers := c.readers.insert name r }, some got)
  | none => (c, none)

end EventChannel

end FleetCoordination
