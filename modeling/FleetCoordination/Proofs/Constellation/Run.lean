import FleetCoordination.Proofs.Election.Office
import FleetCoordination.Proofs.Engine.Rounds
import FleetCoordination.Proofs.Swarm.Run
/-!
# Runs of a constellation

Agents with both of their parts, the leadership and the engine, on one bus. An agent takes
election messages with its leadership and all others with its engine, and its engine sees
the leadership as it stands at the step. All agents see the same agents alive; those that
are alive but do not run are those that never take a step. What is on the bus may reach
those it is meant for at any time, in any order, any number of times or never.

Seen by its elections alone, a constellation is a cluster of election machines.
-/
namespace FleetCoordination

namespace Leadership
open Election

/-- Whether a leadership comes out of an input as its machine does, with what the machine
puts out carried out. -/
def Steps (l : Leadership) (now : Nat) (i : Election.Input) (s : Leadership × List Effect) : Prop :=
  s.1.machine = (l.machine.call now i).1 ∧ s.2 = (l.machine.call now i).2.flatMap (effects l.machine.self now)

theorem steps_dispatch (l l' : Leadership) {now : Nat} {i : Election.Input} :
    l.Steps now i (l'.dispatch (l.machine.call now i).1 now (l.machine.call now i).2) :=
  ⟨rfl, by rw [dispatch, Machine.self_call]⟩

/-- What a tick leaves behind. One that ends in a panic has changed nothing and sends nothing. -/
def ticked (l : Leadership) (now : Nat) (alive : List AgentId) (timeout : Nat) : Leadership × List Effect :=
  (l.tick now alive timeout).getD (l, [])

theorem steps_ticked (l : Leadership) (now : Nat) (alive : List AgentId) (timeout : Nat) :
    l.Steps now (.tick alive timeout) (l.ticked now alive timeout) := by
  unfold ticked tick
  have call : l.machine.call now (.tick alive timeout) = (l.machine.tick now alive timeout).getD (l.machine, []) := rfl
  cases ticks : l.machine.tick now alive timeout with
  | none => simp [Steps, call, ticks]
  | some s =>
    have dispatched : l.Steps now (.tick alive timeout) _ := steps_dispatch l l
    simpa [call, ticks] using dispatched

theorem steps_receive (l : Leadership) {m : Message} {now : Nat} {alive : List AgentId} {timeout : Nat}
    {i : Election.Input} (input : Input.ofMessage? alive timeout m = some i) :
    l.Steps now i (l.receive m now alive timeout) := by
  cases m with
  | voteRequest request =>
    cases input
    simp only [receive]
    split
    · next stale => simp [Steps, Machine.call, Machine.step, Machine.onVoteRequest, stale]
    · exact steps_dispatch ..
  | electionVote vote =>
    cases input
    exact steps_dispatch ..
  | heartbeat beat =>
    cases input
    exact steps_dispatch ..
  | proposalRequest | proposalVote | approval | propagate | ack => cases input

end Leadership

namespace Engine
variable {κ : Type}

theorem Course.no_election {e : Engine κ} {c : Surroundings} {i : Input κ} {rounds : List (Round κ)}
    {sent : List Message} (course : Course e c i rounds sent) {m : Message} (hm : m ∈ sent) (alive : List AgentId)
    (timeout : Nat) : Election.Input.ofMessage? alive timeout m = none := by
  have publishes {m' : Message} (none : Election.Input.ofMessage? alive timeout m' = none) (hm : m ∈ published c m') :
      Election.Input.ofMessage? alive timeout m = .none := by
    unfold published at hm
    split at hm
    · rw [List.mem_singleton.mp hm]
      exact none
    · cases hm
  cases course with
  | idle | advanced | abandoned => cases hm
  | answered m' answer => obtain ⟨a, rfl⟩ | ⟨v, rfl⟩ := answer <;> exact publishes rfl hm
  | propagated | opened =>
    rw [List.mem_singleton.mp hm]
    rfl
  | closed r o =>
    split at hm
    · exact publishes rfl hm
    · cases hm

end Engine

open Engine

theorem Swarm.message_of_mem_envelopes {κ : Type} {publisher : AgentId} {outputs : List (Output κ)} {e : Envelope}
    (h : e ∈ Swarm.envelopes publisher outputs) : e.message ∈ messages outputs := by
  obtain ⟨o, ho, sent⟩ := List.mem_filterMap.mp h
  refine List.mem_filterMap.mpr ⟨o, ho, ?_⟩
  split at sent <;> cases sent <;> rfl

structure Constellation (κ : Type) extends Swarm κ where
  leaderships : AgentId → Leadership
  /-- All that the election machines have put out, oldest first. -/
  log : List Election.Emission := []

namespace Constellation
variable {κ : Type}

/-- The elections of a constellation. -/
def elections (w : Constellation κ) : Election.Cluster :=
  { machines := fun a => (w.leaderships a).machine, log := w.log }

/-- Whether an agent has become leader for a term. -/
def Elected (w : Constellation κ) (a : AgentId) (term : Term) : Prop := w.elections.Elected a term

/-- Whether an agent has stepped down from a term. -/
def Resigned (w : Constellation κ) (a : AgentId) (term : Term) : Prop :=
  term ∈ Election.resigned (w.elections.outputs a)

/-- The envelopes among effects, under the name of their publisher. -/
def envelopes (publisher : AgentId) (effects : List Effect) : List Envelope :=
  effects.filterMap fun
    | .send e _ => some { e with sender := publisher }
    | .announce _ => none

/-- The constellation after one agent's leadership has come out of an election input. -/
def lead (w : Constellation κ) (a : AgentId) (now : Nat) (i : Election.Input) (s : Leadership × List Effect) :
    Constellation κ :=
  { w with
    leaderships := Function.update w.leaderships a s.1
    log := w.log ++ w.elections.emitted a now i
    bus := w.bus ++ envelopes a s.2 }

/-- The constellation after one agent's engine has taken an input. -/
def act (w : Constellation κ) (a : AgentId) (c : Surroundings) (i : Engine.Input κ) : Constellation κ :=
  { w with toSwarm := w.toSwarm.act a c i }

/-- Whether an agent's engine may see such surroundings. -/
structure Sees (agents : Finset AgentId) (w : Constellation κ) (a : AgentId) (c : Surroundings) : Prop where
  leadership : c.leadership = (w.leaderships a).view
  alive : Election.Lists agents c.alive

/-- Whether nothing has happened yet. -/
def Fresh (agents : Finset AgentId) (w : Constellation κ) : Prop := w.toSwarm.Fresh ∧ w.elections.Fresh agents

inductive Step (agents : Finset AgentId) (w : Constellation κ) : Constellation κ → Prop
  | tick {a : AgentId} {alive : List AgentId} (now timeout : Nat) (member : a ∈ agents)
      (lists : Election.Lists agents alive) :
      Step agents w (w.lead a now (.tick alive timeout) ((w.leaderships a).ticked now alive timeout))
  | hear {a : AgentId} {alive : List AgentId} {e : Envelope} {i : Election.Input} (now timeout : Nat)
      (member : a ∈ agents) (lists : Election.Lists agents alive) (sent : e ∈ w.bus) (meant : e.isFor a = true)
      (input : Election.Input.ofMessage? alive timeout e.message = some i) :
      Step agents w (w.lead a now i ((w.leaderships a).receive e.message now alive timeout))
  | turn {a : AgentId} {c : Surroundings} {i : Engine.Input κ} (member : a ∈ agents) (sees : w.Sees agents a c)
      (own : i.own = true) : Step agents w (w.act a c i)
  | deliver {a : AgentId} {c : Surroundings} {e : Envelope} {i : Engine.Input κ} (caller : κ) (member : a ∈ agents)
      (sees : w.Sees agents a c) (sent : e ∈ w.bus) (meant : e.isFor a = true)
      (asks : Engine.Input.ofEnvelope? caller e = some i) : Step agents w (w.act a c i)

inductive Reachable (agents : Finset AgentId) : Constellation κ → Prop
  | start {w : Constellation κ} (fresh : w.Fresh agents) : Reachable agents w
  | step {w w' : Constellation κ} (reached : Reachable agents w) (step : Step agents w w') : Reachable agents w'

section Steps
variable {w : Constellation κ} {a b : AgentId} {now : Nat} {i : Election.Input} {s : Leadership × List Effect}

theorem elections_lead (steps : (w.leaderships a).Steps now i s) :
    (w.lead a now i s).elections = w.elections.act a now i := by
  have machines : (fun b => (Function.update w.leaderships a s.1 b).machine) =
      Function.update w.elections.machines a ((w.elections.machines a).call now i).1 := by
    funext b
    by_cases same : b = a
    · subst same
      rw [Function.update_self, Function.update_self]
      exact steps.1
    · rw [Function.update_of_ne same, Function.update_of_ne same]
      rfl
  simp only [elections, lead, Election.Cluster.act, machines]

theorem mem_envelopes {publisher : AgentId} {effects : List Effect} {e : Envelope} :
    e ∈ envelopes publisher effects ↔ ∃ env qos, .send env qos ∈ effects ∧ { env with sender := publisher } = e := by
  simp only [envelopes, List.mem_filterMap]
  constructor
  · rintro ⟨effect, he, sent⟩
    cases effect with
    | send env qos => exact ⟨env, qos, he, Option.some.inj sent⟩
    | announce => cases sent
  · rintro ⟨env, qos, he, same⟩
    exact ⟨_, he, congrArg some same⟩

/-- What an output of a machine puts on the bus reaches those that the output is meant for. -/
theorem messageFor_of_mem_envelopes {outputs : List Election.Output} {self : AgentId} {e : Envelope}
    (h : e ∈ envelopes a (outputs.flatMap (Leadership.effects self now))) (meant : e.isFor b = true) :
    ∃ o ∈ outputs, o.messageFor? a b = some e.message := by
  obtain ⟨env, qos, sent, rfl⟩ := mem_envelopes.mp h
  obtain ⟨o, ho, effect⟩ := List.mem_flatMap.mp sent
  refine ⟨o, ho, ?_⟩
  cases o with
  | broadcast m =>
    obtain ⟨rfl, -⟩ : env = _ ∧ qos = _ := by simpa [Leadership.effects] using effect
    have other : b ≠ a := by
      rintro rfl
      simp [Envelope.isFor, Envelope.broadcast] at meant
    simp [Election.Output.messageFor?, other, Envelope.broadcast]
  | reply target m =>
    obtain ⟨rfl, -⟩ : env = _ ∧ qos = _ := by simpa [Leadership.effects] using effect
    have target : target = b := by simpa [Envelope.isFor, Envelope.direct] using meant
    simp [Election.Output.messageFor?, target, Envelope.direct]
  | becameLeader | steppedDown | voteGranted => simp [Leadership.effects] at effect

end Steps

/-! ## What every run keeps -/

/-- Whether what a view says of leaders is so: an agent that leads has been elected, and so has
the leader it knows of. -/
def Truthful (elected : AgentId → Term → Prop) (a : AgentId) (v : LeadershipView) : Prop :=
  (v.isLeader = true → elected a v.term) ∧ ∀ l, v.leader = some l → elected l v.term

structure Sound (agents : Finset AgentId) (w : Constellation κ) : Prop where
  elections : w.elections.Reachable agents
  /-- Election messages come from the machines. -/
  traced : ∀ e ∈ w.bus, ∀ a alive timeout i, e.isFor a = true →
    Election.Input.ofMessage? alive timeout e.message = some i →
    ∃ em ∈ w.log, em.output.messageFor? em.agent a = some e.message
  histories : ∀ a, ∃ settings fallback, History (create a settings fallback) (w.pasts a) (w.engines a)
  views : ∀ a, ∀ t ∈ w.pasts a, Truthful w.Elected a t.surroundings.leadership

section Sound
variable {agents : Finset AgentId} {w w' : Constellation κ} {a : AgentId}

theorem Fresh.sound (h : w.Fresh agents) : w.Sound agents := by
  obtain ⟨⟨empty, created⟩, fresh⟩ := h
  refine ⟨.start fresh, by simp [empty], fun a => ?_, fun a => by simp [(created a).1]⟩
  obtain ⟨past, settings, fallback, engine⟩ := created a
  rw [past, engine]
  exact ⟨settings, fallback, .start⟩

theorem Sound.truthful (h : w.Sound agents) (member : a ∈ agents) {c : Surroundings} (sees : w.Sees agents a c) :
    Truthful w.Elected a c.leadership := by
  obtain ⟨leads, knows⟩ := h.elections.orderly.informed a member
  have self : (w.elections.machines a).self = a := h.elections.sound.self a member
  rw [sees.leadership]
  refine ⟨fun leader => ?_, knows⟩
  have elected := leads (of_decide_eq_true leader)
  rwa [self] at elected

theorem Sound.lead (h : w.Sound agents) {now : Nat} {i : Election.Input} {s : Leadership × List Effect}
    (steps : (w.leaderships a).Steps now i s)
    (step : Election.Cluster.Step agents w.elections (w.elections.act a now i)) :
    (w.lead a now i s).Sound agents := by
  have elections := elections_lead steps
  refine ⟨elections ▸ h.elections.step step, fun e he b alive timeout input meant reads => ?_, h.histories, ?_⟩
  · rcases List.mem_append.mp he with old | new
    · obtain ⟨em, hem, carried⟩ := h.traced e old b alive timeout input meant reads
      exact ⟨em, List.mem_append_left _ hem, carried⟩
    · rw [steps.2] at new
      obtain ⟨o, ho, carried⟩ := messageFor_of_mem_envelopes new meant
      exact ⟨⟨a, _, o⟩, List.mem_append_right _ (List.mem_map_of_mem ho), carried⟩
  · intro b t ht
    obtain ⟨leads, knows⟩ := h.views b t ht
    unfold Elected
    rw [elections]
    exact ⟨fun leader => (leads leader).act, fun l known => (knows l known).act⟩

theorem Sound.act (h : w.Sound agents) (member : a ∈ agents) {c : Surroundings} (sees : w.Sees agents a c)
    (i : Engine.Input κ) : (w.act a c i).Sound agents := by
  refine ⟨h.elections, fun e he b alive timeout input meant reads => ?_, fun b => ?_, fun b t ht => ?_⟩
  · rcases List.mem_append.mp he with old | new
    · exact h.traced e old b alive timeout input meant reads
    · have none := (course_step (w.engines a) c i).no_election (Swarm.message_of_mem_envelopes new) alive timeout
      rw [none] at reads
      cases reads
  · by_cases same : b = a
    · subst same
      obtain ⟨settings, fallback, past⟩ := h.histories b
      exact ⟨settings, fallback, by simpa [Constellation.act] using past.step c i⟩
    · simpa only [Constellation.act, Swarm.pasts_act_ne same, Swarm.engines_act_ne same] using h.histories b
  · by_cases same : b = a
    · subst same
      rcases List.mem_append.mp (Swarm.pasts_act_self (w := w.toSwarm) ▸ ht) with old | new
      · exact h.views b t old
      · rw [List.mem_singleton.mp new]
        exact h.truthful member sees
    · exact h.views b t (Swarm.pasts_act_ne (w := w.toSwarm) same ▸ ht)

theorem Sound.step (h : w.Sound agents) (step : Step agents w w') : w'.Sound agents := by
  cases step with
  | tick now timeout member lists =>
    exact h.lead (Leadership.steps_ticked ..) (.tick now timeout member lists)
  | @hear a alive e i now timeout member lists sent meant input =>
    obtain ⟨em, hem, carried⟩ := h.traced e sent a alive timeout i meant input
    exact h.lead (Leadership.steps_receive _ input) (.deliver now timeout member lists hem carried input)
  | turn member sees own => exact h.act member sees _
  | deliver caller member sees sent meant asks => exact h.act member sees _

theorem Reachable.sound (h : w.Reachable agents) : w.Sound agents := by
  induction h with
  | start fresh => exact fresh.sound
  | step _ step ih => exact ih.step step

end Sound

end Constellation

end FleetCoordination
