import Mathlib.Data.Set.Subsingleton
import FleetCoordination.Proofs.Election.Support
/-!
# Runs of one machine

A machine by itself, among peers of which nothing is known: it may be given any inputs at
any times. Messages need not have been sent by anybody, times may go back, and the agents
reported alive may be others at every call.
-/
namespace FleetCoordination.Election

/-- An input at its time. -/
structure Call where
  now : Nat
  input : Input

namespace Machine

/-- The machine after some calls, with all that it has put out. -/
def run (m : Machine) : List Call → Machine × List Output
  | [] => (m, [])
  | c :: rest =>
    let (m', outputs) := m.call c.now c.input
    let (m'', more) := m'.run rest
    (m'', outputs ++ more)

theorem self_run (m : Machine) (calls : List Call) : (m.run calls).1.self = m.self := by
  induction calls generalizing m with
  | nil => rfl
  | cons c rest ih => exact (ih _).trans (m.self_call c.now c.input)

theorem Faithful.run {m : Machine} {past : List Output} (h : m.Faithful past) (calls : List Call) :
    (m.run calls).1.Faithful (past ++ (m.run calls).2) := by
  induction calls generalizing m past with
  | nil => simpa [Machine.run] using h
  | cons c rest ih => simpa only [Machine.run, List.append_assoc] using ih (h.call c.now c.input)

end Machine

/-- The agents that a machine's outputs support in a term: those it has granted its vote, and
itself if it has won. -/
def supported (self : AgentId) (outputs : List Output) (term : Term) : Set AgentId :=
  {a | .voteGranted a term ∈ outputs ∨ a = self ∧ ∃ wait, .becameLeader term wait ∈ outputs}

theorem mem_supported {self a : AgentId} {outputs : List Output} {term : Term} :
    a ∈ supported self outputs term ↔ Supports self outputs a term := by
  simp only [supported, Supports, Set.mem_ofPred_eq, mem_votes, mem_won]

theorem Machine.Faithful.supported {m : Machine} (h : m.Faithful []) (calls : List Call) (term : Term) :
    (supported m.self (m.run calls).2 term).Subsingleton := by
  have faithful := h.run calls
  rw [List.nil_append] at faithful
  have supports {a : AgentId} (ha : a ∈ Election.supported m.self (m.run calls).2 term) :
      Supports (m.run calls).1.self (m.run calls).2 a term := by
    rw [m.self_run calls]
    exact mem_supported.mp ha
  exact fun a ha b hb => faithful.unique (supports ha) (supports hb)

/-- Whatever a machine is told from its creation on, it supports one agent at most in a term. -/
theorem support_exclusive (self : AgentId) (start timeout lease heartbeatInterval : Nat) (calls : List Call)
    (term : Term) :
    (supported self ((Machine.create self start timeout lease heartbeatInterval).run calls).2 term).Subsingleton :=
  (Machine.Faithful.create self start timeout lease heartbeatInterval).supported calls term

end FleetCoordination.Election
