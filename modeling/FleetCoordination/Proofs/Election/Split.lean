import FleetCoordination.Proofs.Election.Office
import FleetCoordination.Proofs.Election.Run
/-!
# Split leadership

Machines that see different agents alive may all come to lead one term. Their heartbeats
settle who goes on: whoever hears a higher agent steps down at once and for good, so that
in the end the highest is left, in whatever order the heartbeats come.
-/
namespace FleetCoordination.Election

/-! ## Hearing a leader of the same term -/

namespace Machine
variable {m : Machine} {now : Nat} {term : Term} {beat : Heartbeat}

/-- A leader takes no notice of a leader of its term that is not above it. -/
theorem step_beat_of_le (leads : m.Leads term) (same : beat.term = term) (lower : ¬m.self < beat.leader)
    (now timeout : Nat) :
    m.call now (.heartbeat beat timeout) = (m, []) := by
  have ignored : m.disposition beat = .ignored := by
    unfold disposition
    rw [if_neg (by rw [same, leads.2]; exact Nat.lt_irrefl _)]
    split
    · rfl
    · next other =>
      have below : beat.leader < m.self := Decidable.not_not.mp fun notBelow =>
        other (String.le_antisymm (String.not_lt.mp lower) (String.not_lt.mp notBelow))
      rw [if_pos ⟨same.trans leads.2.symm, leads.1, below⟩]
  rw [call, step, Option.getD_some, onHeartbeat, ignored]

/-- A leader gives way to a leader of its term that is above it. -/
theorem step_beat_of_lt (leads : m.Leads term) (same : beat.term = term) (higher : m.self < beat.leader)
    (now timeout : Nat) :
    (m.call now (.heartbeat beat timeout)).1.phase = .follower ∧
      (m.call now (.heartbeat beat timeout)).1.term = term ∧
      (m.call now (.heartbeat beat timeout)).2 = [.steppedDown term] := by
  have accepted : m.disposition beat = .accepted := by
    unfold disposition
    rw [if_neg (by rw [same, leads.2]; exact Nat.lt_irrefl _), if_neg, if_neg]
    · exact fun below => String.lt_asymm higher below.2.2
    · exact fun own => String.lt_irrefl _ (own ▸ higher)
  rw [call, step, Option.getD_some, onHeartbeat, accepted]
  exact ⟨rfl, same, by simp [follow, leads.1, leads.2]⟩

/-- A follower stays one, whichever leader of its term it hears. -/
theorem step_beat_of_follower (follows : m.phase = .follower) (current : m.term = term) (same : beat.term = term)
    (now timeout : Nat) :
    (m.call now (.heartbeat beat timeout)).1.phase = .follower ∧
      (m.call now (.heartbeat beat timeout)).1.term = term ∧ (m.call now (.heartbeat beat timeout)).2 = [] := by
  rw [call, step, Option.getD_some, onHeartbeat]
  split
  · exact ⟨rfl, same, by simp [follow, follows]⟩
  · exact ⟨follows, current, rfl⟩
  · exact ⟨follows, current, rfl⟩

/-! ## A term that is over -/

/-- Whether a machine has come to a term without leading it or running for it now. -/
def Past (m : Machine) (term : Term) : Prop := term ≤ m.term ∧ (m.term = term → m.phase = .follower)

theorem Past.move {i : Input} {m' : Machine} {outputs : List Output} (h : m.Past term)
    (move : Move now i m outputs m') : m'.Past term := by
  obtain ⟨reached, follows⟩ := h
  cases move with
  | beat => exact ⟨reached, follows⟩
  | stand => exact ⟨Nat.le_succ_of_le reached, fun same => (Nat.ne_of_gt (Nat.lt_succ_of_le reached) same).elim⟩
  | win runs => exact ⟨reached, fun same => by simp [follows same] at runs⟩
  | adopt _ higher => exact ⟨Nat.le_trans reached (Nat.le_of_lt higher), fun _ => rfl⟩
  | support => exact ⟨reached, fun _ => rfl⟩
  | join => unfold addSupporter; split <;> exact ⟨reached, follows⟩
  | follow accepted => exact ⟨Nat.le_trans reached (le_of_accepted accepted), fun _ => rfl⟩

theorem Past.moves {i : Input} {m' : Machine} {outputs : List Output} (h : m.Past term)
    (moves : Moves now i m outputs m') : m'.Past term := by
  induction moves with
  | none => exact h
  | cons move _ ih => exact ih (h.move move)

/-- A term that a machine follows in is never led by it again. -/
theorem Past.not_leads (h : m.Past term) (calls : List Call) : ¬(m.run calls).1.Leads term := by
  induction calls generalizing m with
  | nil =>
    rintro ⟨leads, current⟩
    exact Phase.noConfusion (leads.symm.trans (h.2 current))
  | cons c rest ih => exact ih (h.moves (m.moves_call c.now c.input))

end Machine

/-! ## Several leaders -/

/-- A heartbeat of one agent on its way to another. -/
structure Pulse where
  sender : AgentId
  recipient : AgentId
  sentAt : Nat
  now : Nat
  timeout : Nat

namespace Pulse
variable (p : Pulse) (machines : AgentId → Machine)

def beat : Heartbeat :=
  { term := (machines p.sender).term, leader := (machines p.sender).self, time := Timestamp.ofMillis p.sentAt }

/-- What arrives of the sender's heartbeat: nothing, if the sender is the recipient itself. -/
def input? : Option Input :=
  (((machines p.sender).announcement p.sentAt).messageFor? p.sender p.recipient).bind (Input.ofMessage? [] p.timeout)

theorem input?_eq :
    p.input? machines = if p.recipient = p.sender then none else some (.heartbeat (p.beat machines) p.timeout) := by
  simp only [input?, Machine.announcement, Output.messageFor?]
  split <;> rfl

end Pulse

/-- Whether several agents all lead a term, each with a machine of its own. -/
structure Split (agents : Finset AgentId) (term : Term) (machines : AgentId → Machine) : Prop where
  several : 1 < agents.card
  self : ∀ a ∈ agents, (machines a).self = a
  leads : ∀ a ∈ agents, (machines a).Leads term

/-- A cluster after a heartbeat that one of some machines has sent has arrived. -/
def Cluster.hear (machines : AgentId → Machine) (w : Cluster) (p : Pulse) : Cluster :=
  match p.input? machines with
  | some i => w.act p.recipient p.now i
  | none => w

theorem Cluster.hear_eq (machines : AgentId → Machine) (w : Cluster) (p : Pulse) :
    w.hear machines p = if p.recipient = p.sender then w
      else w.act p.recipient p.now (.heartbeat (p.beat machines) p.timeout) := by
  rw [hear, p.input?_eq]
  by_cases own : p.recipient = p.sender
  · rw [if_pos own, if_pos own]
  · rw [if_neg own, if_neg own]

/-- What becomes of some machines, with all that they put out, as heartbeats of theirs arrive. -/
def heal (machines : AgentId → Machine) (pulses : List Pulse) : Cluster :=
  pulses.foldl (Cluster.hear machines) { machines }

theorem heal_snoc (machines : AgentId → Machine) (pulses : List Pulse) (p : Pulse) :
    heal machines (pulses ++ [p]) = (heal machines pulses).hear machines p := List.foldl_append

/-- Whether an agent has heard a higher one. -/
def Overruled (pulses : List Pulse) (a : AgentId) : Prop := ∃ p ∈ pulses, p.recipient = a ∧ a < p.sender

theorem overruled_snoc {pulses : List Pulse} {p : Pulse} {a : AgentId} :
    Overruled (pulses ++ [p]) a ↔ Overruled pulses a ∨ p.recipient = a ∧ a < p.sender := by
  simp [Overruled, or_and_right, exists_or]

/-- How an agent stands in a cluster after some heartbeats: as it did before them if it has heard
no higher agent, and as one that has stepped down, once, if it has. -/
def Stands (machines : AgentId → Machine) (w : Cluster) (term : Term) (pulses : List Pulse) (a : AgentId) : Prop :=
  (¬Overruled pulses a ∧ w.machines a = machines a ∧ w.outputs a = []) ∨
    Overruled pulses a ∧ (w.machines a).phase = .follower ∧ (w.machines a).term = term ∧
      w.outputs a = [.steppedDown term]

section Stands
variable {agents : Finset AgentId} {term : Term} {machines : AgentId → Machine} {w : Cluster} {pulses : List Pulse}
  {p : Pulse} {a : AgentId}

/-- A heartbeat does not bear on its sender, nor on an agent that it is not sent to. -/
theorem Stands.aside (h : Stands machines w term pulses a) (aside : p.recipient = p.sender ∨ p.recipient ≠ a) :
    Stands machines (w.hear machines p) term (pulses ++ [p]) a := by
  have same : Overruled (pulses ++ [p]) a ↔ Overruled pulses a := by
    refine overruled_snoc.trans (or_iff_left ?_)
    rintro ⟨rfl, higher⟩
    rcases aside with own | other
    · exact String.lt_irrefl _ (own ▸ higher)
    · exact other rfl
  unfold Stands
  rw [same, Cluster.hear_eq]
  split
  · exact h
  · next notOwn =>
    have other : a ≠ p.recipient := Ne.symm (aside.resolve_left notOwn)
    rw [Cluster.machines_act_ne other, Cluster.outputs_act_ne other]
    exact h

/-- The agent that a heartbeat is sent to steps down if it still leads and the sender is higher. -/
theorem Stands.heard (h : Stands machines w term pulses p.recipient) (split : Split agents term machines)
    (member : p.recipient ∈ agents) (last : p.sender ∈ agents) (notOwn : p.recipient ≠ p.sender) :
    Stands machines (w.hear machines p) term (pulses ++ [p]) p.recipient := by
  have same : (p.beat machines).term = term := (split.leads _ last).2
  have sender : (p.beat machines).leader = p.sender := split.self _ last
  unfold Stands
  rw [overruled_snoc, Cluster.hear_eq, if_neg notOwn, Cluster.machines_act_self, Cluster.outputs_act_self]
  obtain ⟨free, asBefore, silent⟩ | ⟨overruled, follows, current, resigned⟩ := h
  · have leads := split.leads _ member
    have self := split.self _ member
    rw [asBefore, silent]
    by_cases higher : p.recipient < p.sender
    · obtain ⟨follows, current, resigns⟩ :=
        Machine.step_beat_of_lt leads same (by rwa [self, sender]) p.now p.timeout
      exact .inr ⟨.inr ⟨rfl, higher⟩, follows, current, resigns⟩
    · rw [Machine.step_beat_of_le leads same (by rwa [self, sender])]
      exact .inl ⟨by simp [free, higher], rfl, rfl⟩
  · obtain ⟨follows, current, silent⟩ := Machine.step_beat_of_follower follows current same p.now p.timeout
    exact .inr ⟨.inl overruled, follows, current, by rw [resigned, silent, List.append_nil]⟩

theorem Split.stands (split : Split agents term machines) (among : ∀ p ∈ pulses, p.sender ∈ agents)
    (member : a ∈ agents) : Stands machines (heal machines pulses) term pulses a := by
  -- from the end: each heartbeat is as it was sent at the start, whatever its sender is by now
  induction pulses using List.reverseRecOn with
  | nil => exact .inl ⟨by simp [Overruled], rfl, rfl⟩
  | append_singleton pulses p ih =>
    obtain ⟨before, last⟩ := List.forall_mem_append.mp among
    have stands := ih before
    rw [heal_snoc]
    by_cases aside : p.recipient = p.sender ∨ p.recipient ≠ a
    · exact stands.aside aside
    · obtain ⟨notOwn, here⟩ := not_or.mp aside
      obtain rfl := not_not.mp here
      exact stands.heard split member (last p (List.mem_singleton_self p)) notOwn

end Stands

/-- Of several leaders of one term the highest stays in office and puts out nothing, whichever of
their heartbeats arrive, when and how often. Each other stays in office until it hears a higher
one, then steps down, once, and never leads the term again, whatever it may be told later. Once
all others have heard the highest, it alone leads. -/
theorem split_heals {agents : Finset AgentId} {term : Term} {machines : AgentId → Machine}
    (split : Split agents term machines) (pulses : List Pulse) (among : ∀ p ∈ pulses, p.sender ∈ agents)
    (highest : AgentId) (member : highest ∈ agents) (top : ∀ a ∈ agents, ¬highest < a) :
    let w := heal machines pulses
    ((w.machines highest).Leads term ∧ w.outputs highest = []) ∧
      (∀ a ∈ agents,
        (¬Overruled pulses a → (w.machines a).Leads term ∧ w.outputs a = []) ∧
        (Overruled pulses a → (w.machines a).phase = .follower ∧ w.outputs a = [.steppedDown term] ∧
          ∀ calls, ¬((w.machines a).run calls).1.Leads term)) ∧
      ((∀ a ∈ agents, a ≠ highest → ∃ p ∈ pulses, p.recipient = a ∧ p.sender = highest) →
        ∀ a ∈ agents, (w.machines a).phase = .leader ↔ a = highest) := by
  intro w
  have stays {a : AgentId} (ha : a ∈ agents) (free : ¬Overruled pulses a) :
      (w.machines a).Leads term ∧ w.outputs a = [] := by
    obtain ⟨-, asBefore, silent⟩ | ⟨overruled, -⟩ := split.stands among ha
    · exact ⟨asBefore ▸ split.leads a ha, silent⟩
    · exact (free overruled).elim
  have yields {a : AgentId} (ha : a ∈ agents) (overruled : Overruled pulses a) :
      (w.machines a).phase = .follower ∧ w.outputs a = [.steppedDown term] ∧
        ∀ calls, ¬((w.machines a).run calls).1.Leads term := by
    obtain ⟨free, -⟩ | ⟨-, follows, current, resigned⟩ := split.stands among ha
    · exact (free overruled).elim
    · have past : (w.machines a).Past term := ⟨Nat.le_of_eq current.symm, fun _ => follows⟩
      exact ⟨follows, resigned, past.not_leads⟩
  have unruled : ¬Overruled pulses highest := by
    rintro ⟨p, hp, -, higher⟩
    exact top p.sender (among p hp) higher
  refine ⟨stays member unruled, fun a ha => ⟨stays ha, yields ha⟩, fun heard a ha => ?_⟩
  by_cases same : a = highest
  · subst same
    exact iff_of_true (stays member unruled).1.1 rfl
  · obtain ⟨p, hp, recipient, sender⟩ := heard a ha same
    have higher : a < highest := Decidable.not_not.mp fun notBelow =>
      same (String.le_antisymm (String.not_lt.mp (top a ha)) (String.not_lt.mp notBelow))
    have follows := (yields ha ⟨p, hp, recipient, sender ▸ higher⟩).1
    exact iff_of_false (by simp [follows]) same

/-- Machines that have each seen nobody else alive, and so have each won the first term. -/
def secluded (a : AgentId) : Machine := ((Machine.create a 0 0 10000 1000).run [⟨1, .tick [a] 200⟩]).1

/-- Heartbeats among three, of which one comes from an agent that has stepped down by then and
one comes twice. -/
def crossing : List Pulse :=
  [⟨"A", "B", 1, 2, 200⟩, ⟨"B", "A", 1, 2, 200⟩, ⟨"A", "C", 1, 3, 200⟩, ⟨"C", "A", 1, 4, 200⟩,
    ⟨"C", "B", 1, 5, 200⟩, ⟨"C", "B", 1, 6, 200⟩]

/-- The highest of three is left. -/
theorem split_heals_trio : Split {"A", "B", "C"} 1 secluded ∧
    (heal secluded crossing).outputs "A" = [.steppedDown 1] ∧
    ∀ a ∈ ({"A", "B", "C"} : Finset AgentId), ((heal secluded crossing).machines a).phase = .leader ↔ a = "C" := by
  have split : Split {"A", "B", "C"} 1 secluded := by
    refine ⟨by decide, ?_, ?_⟩ <;> simp only [Finset.forall_mem_insert, Finset.mem_singleton, forall_eq]
    · exact ⟨rfl, rfl, rfl⟩
    · exact ⟨⟨rfl, rfl⟩, ⟨rfl, rfl⟩, rfl, rfl⟩
  have healed := split_heals split crossing (by decide) "C" (by decide) (by decide)
  refine ⟨split, ((healed.2.1 "A" (by decide)).2 ⟨_, List.mem_of_getElem? (i := 1) rfl, rfl, by decide⟩).2.1, ?_⟩
  refine healed.2.2 fun a ha other => ?_
  obtain rfl | rfl | rfl : a = "A" ∨ a = "B" ∨ a = "C" := by simpa using ha
  · exact ⟨_, List.mem_of_getElem? (i := 3) rfl, rfl, rfl⟩
  · exact ⟨_, List.mem_of_getElem? (i := 4) rfl, rfl, rfl⟩
  · exact (other rfl).elim

end FleetCoordination.Election
