import Mathlib.Data.Finset.Card
import Mathlib.Logic.Function.Basic
import FleetCoordination.Proofs.Election.Support
/-!
# Clusters of election machines

Each agent of a set runs one machine. What the machines put out stays in a log, and
anything in the log may reach those it is meant for at any time, in any order, any number
of times or never. Agents that tick do so at any time with any timeout. One that would have
to stand for a term past the last stays as it is.
-/
namespace FleetCoordination.Election

/-- One output of one agent, with its machine as the step left it. -/
structure Emission where
  agent : AgentId
  machine : Machine
  output : Output

namespace Emission

def Wins (e : Emission) (term : Term) : Prop := ∃ wait, e.output = .becameLeader term wait

def Grants (e : Emission) (candidate : AgentId) (term : Term) : Prop := e.output = .voteGranted candidate term

end Emission

/-- The message an output of `sender` holds for another agent: broadcasts are for all others,
replies for their recipient. -/
def Output.messageFor? (sender recipient : AgentId) : Output → Option Message
  | .broadcast m => if recipient = sender then none else some m
  | .reply target m => if target = recipient then some m else none
  | _ => none

/-- An election message as an input of the agent it reaches. -/
def Input.ofMessage? (alive : List AgentId) (timeout : Nat) : Message → Option Input
  | .voteRequest m => some (.voteRequest m timeout)
  | .electionVote m => some (.vote m alive)
  | .heartbeat m => some (.heartbeat m timeout)
  | _ => none

/-- An alive list that names the agents of a set, each once. -/
def Lists (agents : Finset AgentId) (alive : List AgentId) : Prop :=
  alive.Nodup ∧ ∀ a, a ∈ alive ↔ a ∈ agents

structure Cluster where
  machines : AgentId → Machine
  /-- Oldest first. -/
  log : List Emission := []

namespace Cluster

def outputs (w : Cluster) (agent : AgentId) : List Output :=
  (w.log.filter fun e => e.agent = agent).map (·.output)

/-- What a step of an agent's machine puts out. -/
def emitted (w : Cluster) (agent : AgentId) (now : Nat) (i : Input) : List Emission :=
  ((w.machines agent).call now i).2.map fun output => ⟨agent, ((w.machines agent).call now i).1, output⟩

/-- The cluster after one agent has taken an input. -/
def act (w : Cluster) (agent : AgentId) (now : Nat) (i : Input) : Cluster :=
  { machines := Function.update w.machines agent ((w.machines agent).call now i).1
    log := w.log ++ w.emitted agent now i }

/-- Whether every agent is fresh. -/
def Fresh (agents : Finset AgentId) (w : Cluster) : Prop :=
  w.log = [] ∧ ∀ a ∈ agents, ∃ now timeout lease heartbeatInterval,
    w.machines a = Machine.create a now timeout lease heartbeatInterval

inductive Step (agents : Finset AgentId) (w : Cluster) : Cluster → Prop
  | tick {a : AgentId} {alive : List AgentId} (now timeout : Nat) (member : a ∈ agents) (lists : Lists agents alive) :
      Step agents w (w.act a now (.tick alive timeout))
  | deliver {a : AgentId} {alive : List AgentId} {e : Emission} {m : Message} {i : Input} (now timeout : Nat)
      (member : a ∈ agents) (lists : Lists agents alive) (sent : e ∈ w.log)
      (meant : e.output.messageFor? e.agent a = some m) (input : Input.ofMessage? alive timeout m = some i) :
      Step agents w (w.act a now i)

inductive Reachable (agents : Finset AgentId) : Cluster → Prop
  | start {w : Cluster} (fresh : w.Fresh agents) : Reachable agents w
  | step {w w' : Cluster} (reached : Reachable agents w) (step : Step agents w w') : Reachable agents w'

end Cluster

/-- Whether the log shows that `voter` granted `candidate` its vote in a term. -/
def Granted (log : List Emission) (voter candidate : AgentId) (term : Term) : Prop :=
  ∃ e ∈ log, e.agent = voter ∧ e.Grants candidate term

theorem Granted.append {log : List Emission} {voter candidate : AgentId} {term : Term}
    (h : Granted log voter candidate term) (new : List Emission) : Granted (log ++ new) voter candidate term := by
  obtain ⟨e, he, h⟩ := h
  exact ⟨e, List.mem_append_left new he, h⟩

namespace Cluster
variable {w : Cluster} {a b : AgentId} {now : Nat} {i : Input}

@[simp] theorem machines_act_self : (w.act a now i).machines a = ((w.machines a).call now i).1 :=
  Function.update_self ..

theorem machines_act_ne (h : b ≠ a) : (w.act a now i).machines b = w.machines b :=
  Function.update_of_ne h ..

theorem outputs_act_self : (w.act a now i).outputs a = w.outputs a ++ ((w.machines a).call now i).2 := by
  simp [outputs, act, emitted, List.filter_map, Function.comp_def]

theorem outputs_act_ne (h : b ≠ a) : (w.act a now i).outputs b = w.outputs b := by
  simp [outputs, act, emitted, List.filter_map, Function.comp_def, h.symm]

theorem mem_votes_outputs {candidate : AgentId} {term : Term} :
    (candidate, term) ∈ votes (w.outputs a) ↔ Granted w.log a candidate term := by
  simp only [mem_votes, outputs, List.mem_map, List.mem_filter, decide_eq_true_eq, Granted, Emission.Grants, and_assoc]

theorem mem_won_outputs {term : Term} : term ∈ won (w.outputs a) ↔ ∃ e ∈ w.log, e.agent = a ∧ e.Wins term := by
  simp only [mem_won, outputs, List.mem_map, List.mem_filter, decide_eq_true_eq, Emission.Wins, and_assoc]
  grind

end Cluster

end FleetCoordination.Election
