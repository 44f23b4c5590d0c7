import FleetCoordination.Proofs.Engine.Votes
/-!
# Runs of a swarm

Engines that share a bus. An agent that is not faulty takes inputs of its own, or what an
envelope on the bus asks of it, at any time and any number of times. A faulty agent puts
any envelope on the bus; its own name stands on it all the same.
-/
namespace FleetCoordination

/-- Whether an input comes from the agent itself and not from the bus. -/
def Engine.Input.own {κ : Type} : Engine.Input κ → Bool
  | .request .. | .vote _ | .approval .. | .delivery .. | .ack _ => false
  | _ => true

open Engine

structure Swarm (κ : Type) where
  engines : AgentId → Engine κ
  pasts : AgentId → List (Turn κ) := fun _ => []
  /-- All that was published, oldest first. -/
  bus : List Envelope := []

namespace Swarm
variable {κ : Type}

/-- The envelopes among outputs, under the name of their publisher. One that is handed to the bus may
have gone out by the time its publisher is told so, and also if it is told that it has not. -/
def envelopes (publisher : AgentId) (outputs : List (Output κ)) : List Envelope :=
  outputs.filterMap fun
    | .send e _ | .post _ e => some { e with sender := publisher }
    | _ => none

/-- The swarm after one agent has taken an input. -/
def act (w : Swarm κ) (a : AgentId) (c : Surroundings) (i : Input κ) : Swarm κ :=
  let t : Turn κ := ⟨w.engines a, c, i⟩
  { engines := Function.update w.engines a t.after
    pasts := Function.update w.pasts a (w.pasts a ++ [t])
    bus := w.bus ++ envelopes a t.outputs }

/-- The swarm after a faulty agent has published an envelope. -/
def forge (w : Swarm κ) (f : AgentId) (e : Envelope) : Swarm κ := { w with bus := w.bus ++ [{ e with sender := f }] }

/-- Whether nothing has happened yet. -/
def Fresh (w : Swarm κ) : Prop :=
  w.bus = [] ∧ ∀ a, w.pasts a = [] ∧ ∃ settings fallback, w.engines a = create a settings fallback

inductive Step (faulty : AgentId → Prop) (w : Swarm κ) : Swarm κ → Prop
  | turn {a : AgentId} {i : Input κ} (c : Surroundings) (honest : ¬faulty a) (own : i.own = true) :
      Step faulty w (w.act a c i)
  | deliver {a : AgentId} {i : Input κ} {e : Envelope} (c : Surroundings) (caller : κ) (honest : ¬faulty a)
      (sent : e ∈ w.bus) (meant : e.isFor a = true) (asks : Input.ofEnvelope? caller e = some i) :
      Step faulty w (w.act a c i)
  | forge {f : AgentId} (e : Envelope) (corrupt : faulty f) : Step faulty w (w.forge f e)

inductive Reachable (faulty : AgentId → Prop) : Swarm κ → Prop
  | start {w : Swarm κ} (fresh : w.Fresh) : Reachable faulty w
  | step {w w' : Swarm κ} (reached : Reachable faulty w) (step : Step faulty w w') : Reachable faulty w'

section Act
variable {w : Swarm κ} {a b : AgentId} {c : Surroundings} {i : Input κ}

@[simp] theorem engines_act_self : (w.act a c i).engines a = ((w.engines a).step c i).1 := Function.update_self ..

theorem engines_act_ne (h : b ≠ a) : (w.act a c i).engines b = w.engines b := Function.update_of_ne h ..

@[simp] theorem pasts_act_self : (w.act a c i).pasts a = w.pasts a ++ [⟨w.engines a, c, i⟩] := Function.update_self ..

theorem pasts_act_ne (h : b ≠ a) : (w.act a c i).pasts b = w.pasts b := Function.update_of_ne h ..

theorem mem_bus_act {e : Envelope} (h : e ∈ (w.act a c i).bus) : e ∈ w.bus ∨ e.sender = a := by
  rcases List.mem_append.mp h with old | new
  · exact .inl old
  · obtain ⟨o, -, sent⟩ := List.mem_filterMap.mp new
    split at sent <;> cases sent <;> exact .inr rfl

end Act

/-! ## Authentic votes -/

/-- What every run keeps: agents that are not faulty follow the code, take votes from the
bus only, and sign them with their own names. -/
structure Authentic (faulty : AgentId → Prop) (w : Swarm κ) : Prop where
  histories : ∀ a, ¬faulty a → ∃ settings fallback, History (create a settings fallback) (w.pasts a) (w.engines a)
  heard : ∀ a, ¬faulty a → ∀ t ∈ w.pasts a, ∀ v, t.input = .vote v → ∃ e ∈ w.bus, e.message = .proposalVote v
  signed : ∀ e ∈ w.bus, ¬faulty e.sender → ∀ v, e.message = .proposalVote v → v.voter = e.sender

section Authentic
variable {faulty : AgentId → Prop} {w w' : Swarm κ} {a : AgentId} {c : Surroundings} {i : Input κ}

theorem Fresh.authentic (h : w.Fresh) : w.Authentic faulty := by
  obtain ⟨empty, created⟩ := h
  refine ⟨fun a _ => ?_, fun a _ t ht => ?_, fun e he => ?_⟩
  · obtain ⟨past, settings, fallback, engine⟩ := created a
    rw [past, engine]
    exact ⟨settings, fallback, .start⟩
  · simp [(created a).1] at ht
  · simp [empty] at he

theorem Authentic.act (h : w.Authentic faulty) (honest : ¬faulty a)
    (heard : ∀ v, i = .vote v → ∃ e ∈ w.bus, e.message = .proposalVote v) : (w.act a c i).Authentic faulty := by
  obtain ⟨settings, fallback, past⟩ := h.histories a honest
  have now := past.step c i
  refine ⟨fun b hb => ?_, fun b hb t ht v vote => ?_, fun e he hf v vote => ?_⟩
  · by_cases same : b = a
    · subst same
      rw [engines_act_self, pasts_act_self]
      exact ⟨settings, fallback, now⟩
    · rw [engines_act_ne same, pasts_act_ne same]
      exact h.histories b hb
  · have old (ht : t ∈ w.pasts b) : ∃ e ∈ (w.act a c i).bus, e.message = .proposalVote v := by
      obtain ⟨e, he, message⟩ := h.heard b hb t ht v vote
      exact ⟨e, List.mem_append_left _ he, message⟩
    by_cases same : b = a
    · subst same
      rw [pasts_act_self] at ht
      rcases List.mem_append.mp ht with before | last
      · exact old before
      · rw [List.mem_singleton.mp last] at vote
        obtain ⟨e, he, message⟩ := heard v vote
        exact ⟨e, List.mem_append_left _ he, message⟩
    · exact old (pasts_act_ne same ▸ ht)
  · rcases List.mem_append.mp he with before | new
    · exact h.signed e before hf v vote
    · obtain ⟨o, ho, sent⟩ := List.mem_filterMap.mp new
      have fair := now.polls.2 _ (List.mem_append_right _ (List.mem_singleton_self _)) o ho
      split at sent <;> cases sent <;> exact fair v vote

theorem Authentic.step (h : w.Authentic faulty) (step : Step faulty w w') : w'.Authentic faulty := by
  cases step with
  | turn c honest own => exact h.act honest (by rintro v rfl; cases own)
  | @deliver a i e c caller honest sent meant asks =>
    refine h.act honest ?_
    rintro v rfl
    refine ⟨e, sent, ?_⟩
    unfold Input.ofEnvelope? at asks
    split at asks <;> simp_all
  | forge e corrupt =>
    refine ⟨h.histories, fun a ha t ht v vote => ?_, fun e he honest v vote => ?_⟩
    · obtain ⟨e', he', message⟩ := h.heard a ha t ht v vote
      exact ⟨e', List.mem_append_left _ he', message⟩
    · rcases List.mem_append.mp he with before | new
      · exact h.signed e before honest v vote
      · rw [List.mem_singleton.mp new] at honest
        exact (honest corrupt).elim

theorem Reachable.authentic (h : w.Reachable faulty) : w.Authentic faulty := by
  induction h with
  | start fresh => exact fresh.authentic
  | step _ step ih => exact ih.step step

end Authentic

end Swarm

end FleetCoordination
