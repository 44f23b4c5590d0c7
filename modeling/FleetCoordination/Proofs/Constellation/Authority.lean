import FleetCoordination.Proofs.Constellation.Run
/-!
# Authority

An engine takes a commit or a propagation from the leader it knows of only, in the term it
is in. That leader has won the term, and no other agent has.
-/
namespace FleetCoordination

namespace Engine
variable {κ : Type}

/-- The sender and the term of a commit or a propagation of another agent. -/
def Input.authority? : Input κ → Option (AgentId × Term)
  | .approval sender m => some (sender, m.term)
  | .delivery sender m => some (sender, m.term)
  | _ => none

/-- Whether a turn accepts a commit or a propagation of a sender in a term. -/
structure Turn.Accepts (t : Turn κ) (sender : AgentId) (term : Term) : Prop where
  input : t.input.authority? = some (sender, term)
  accepted : accepts t.surroundings.leadership sender term = true

theorem accepts_iff {v : LeadershipView} {sender : AgentId} {term : Term} :
    accepts v sender term = true ↔ v.leader = some sender ∧ v.term = term := by
  unfold accepts
  grind

end Engine

namespace Constellation
open Engine
variable {κ : Type} {agents : Finset AgentId} {w : Constellation κ}

/-- Whether an agent has ever accepted a commit or a propagation of a sender in a term. -/
def Accepted (w : Constellation κ) (a sender : AgentId) (term : Term) : Prop :=
  ∃ t ∈ w.pasts a, t.Accepts sender term

theorem Sound.elected_of_accepted (h : w.Sound agents) {a sender : AgentId} {term : Term}
    (accepted : w.Accepted a sender term) : w.Elected sender term := by
  obtain ⟨t, ht, -, accepts⟩ := accepted
  obtain ⟨known, current⟩ := accepts_iff.mp accepts
  exact current ▸ (h.views a t ht).2 sender known

/-- All commits and propagations of one term that are accepted anywhere come from one agent,
the only one that has become leader for the term. -/
theorem commit_authority (h : w.Reachable agents) {x y f g : AgentId} {term : Term} (hx : w.Accepted x f term)
    (hy : w.Accepted y g term) : f = g ∧ w.Elected f term ∧ ∀ a, w.Elected a term → a = f := by
  have sound := h.sound
  have elected := sound.elected_of_accepted hx
  have unique a (ha : w.Elected a term) : a = f := sound.elections.elected_unique ha elected
  exact ⟨(unique g (sound.elected_of_accepted hy)).symm, elected, unique⟩

/-- Agents of which the first to tick stands for election. -/
def dawn : Constellation Unit where
  engines a := create a {} true
  leaderships a := { machine := Election.Machine.create a 0 0 10000 1000 }

/-- What an agent's engine sees at a time, with the bus in order. -/
def scene (w : Constellation κ) (a : AgentId) (alive : List AgentId) (now : Nat) : Surroundings :=
  { leadership := (w.leaderships a).view, alive, now }

theorem sees_scene {a : AgentId} {alive : List AgentId} (lists : Election.Lists agents alive) (now : Nat) :
    w.Sees agents a (w.scene a alive now) := ⟨rfl, lists⟩

theorem reachable_dawn (agents : Finset AgentId) : dawn.Reachable agents :=
  .start ⟨⟨rfl, fun _ => ⟨rfl, {}, true, rfl⟩⟩, rfl, fun _ _ => ⟨0, 0, 10000, 1000, rfl⟩⟩

/-- A leader's propagation reaches its two followers. -/
theorem commit_authority_followers : ∃ w : Constellation Unit, w.Reachable {"A", "B", "C"} ∧
    w.Accepted "B" "A" 1 ∧ w.Accepted "C" "A" 1 ∧ ∀ a, w.Elected a 1 → a = "A" := by
  have lists := Election.lists_trio
  have wins := (((reachable_dawn {"A", "B", "C"}).step (.tick (a := "A") 1 200 (by decide) lists)).step
    (.hear (a := "B") 2 200 (by decide) lists (List.mem_of_getElem? (i := 0) rfl) rfl rfl)).step
    (.hear (a := "A") 3 200 (by decide) lists (List.mem_of_getElem? (i := 1) rfl) rfl rfl)
  have known := (wins.step
    (.hear (a := "B") 4 200 (by decide) lists (List.mem_of_getElem? (i := 2) rfl) rfl rfl)).step
    (.hear (a := "C") 4 200 (by decide) lists (List.mem_of_getElem? (i := 2) rfl) rfl rfl)
  have asked := known.step
    (.turn (a := "A") (i := .propagate () (.ofNat 1) "noop" .null 1000) (by decide) (sees_scene lists 5) rfl)
  have both := (asked.step
    (.deliver (a := "B") () (by decide) (sees_scene lists 6) (List.mem_of_getElem? (i := 3) rfl) rfl rfl)).step
    (.deliver (a := "C") () (by decide) (sees_scene lists 6) (List.mem_of_getElem? (i := 3) rfl) rfl rfl)
  obtain ⟨w, reached, accepted, accepted'⟩ : ∃ w : Constellation Unit, w.Reachable {"A", "B", "C"} ∧
      w.Accepted "B" "A" 1 ∧ w.Accepted "C" "A" 1 :=
    ⟨_, both, ⟨_, List.mem_of_getElem? (i := 0) rfl, rfl, rfl⟩, ⟨_, List.mem_of_getElem? (i := 0) rfl, rfl, rfl⟩⟩
  exact ⟨w, reached, accepted, accepted', (commit_authority reached accepted accepted').2.2⟩

end Constellation

end FleetCoordination
