import FleetCoordination.Node
import FleetCoordination.Proofs.Arbitration
/-!
# Disputes

Two policies that are put to a node are arbitrated, and the winner is carried out as any decision
is, unless a hard constraint bars it. A barred dispute ends at once: nobody is called and nothing is
counted or announced but the arbitration itself.
-/
namespace FleetCoordination

/-! ## Constraints -/

namespace SafetyContext

/-- Whether a hard constraint is in force: a named one, or a battery known to be below its critical
level. -/
def Constrains (c : SafetyContext) : Prop :=
  c.constraints ≠ [] ∨ ∃ level, c.battery = some level ∧ level < c.critical

theorem batteryCritical_iff {c : SafetyContext} :
    c.batteryCritical = true ↔ ∃ level, c.battery = some level ∧ level < c.critical := by
  unfold batteryCritical
  cases c.battery <;> simp

theorem active_ne_nil {c : SafetyContext} : c.active ≠ [] ↔ c.Constrains := by
  rw [Constrains, ← batteryCritical_iff, active]
  cases c.batteryCritical <;> simp

end SafetyContext

/-- A policy is not permitted just if it is no safety policy and a constraint is in force. -/
theorem Arbitration.permits_eq_false {p : Policy} {c : SafetyContext} :
    permits p c.active = false ↔ p.priority ≠ .safety ∧ c.Constrains := by
  rw [← SafetyContext.active_ne_nil, permits, Bool.or_eq_false_iff, ← Bool.not_eq_true, isSafety_iff,
    ← Bool.not_eq_true, List.isEmpty_iff]

namespace Node

/-- The node with other counts at its arbiter. -/
def counting (n : Node) (metrics : ArbitrationMetrics) : Node :=
  { n with orchestrator := { n.orchestrator with arbiter := { n.orchestrator.arbiter with metrics } } }

/-- Two policies that are put to a node under a safety context. -/
structure Dispute where
  job : Nat
  here : Policy
  global : Policy
  context : SafetyContext
  /-- The id of the decision that the winner would become. -/
  decision : Uuid
  timeout : Nat

def Input.disputes : Input → Bool
  | .resolve .. => true
  | _ => false

namespace Dispute

def input (d : Dispute) : Input := .resolve d.job d.here d.global d.context d.decision d.timeout

theorem eq_input_of_disputes {i : Input} (h : i.disputes = true) : ∃ d : Dispute, i = d.input := by
  cases i with
  | resolve job here global context decision timeout => exact ⟨⟨job, here, global, context, decision, timeout⟩, rfl⟩
  | _ => cases h

/-- The policy that wins at a node. -/
def winner (d : Dispute) (n : Node) : Policy :=
  (Arbitration.resolve n.orchestrator.arbiter.weights d.here d.global).winner

/-- Whether a constraint is in force and neither policy is for safety. -/
def Barred (d : Dispute) : Prop :=
  (d.here.priority ≠ .safety ∧ d.global.priority ≠ .safety) ∧ d.context.Constrains

/-- How a barred dispute ends. -/
def refusal (d : Dispute) (n : Node) : Output :=
  .finished d.job (.refused (.policyRejected (Arbitration.rejectionText (d.winner n) d.context.active)))

/-- The input by which the winner is carried out at its own scope. -/
def execution (d : Dispute) (n : Node) (decision : Decision) : Input :=
  .carryOut d.job decision (Orchestrator.scopeOf (d.winner n).scope) d.timeout

variable {d : Dispute} {n : Node}

theorem safety_winner : (d.winner n).priority = .safety ↔ d.here.priority = .safety ∨ d.global.priority = .safety :=
  ⟨Arbitration.safety_of_winner, Arbitration.winner_safety⟩

theorem barred_iff (n : Node) : d.Barred ↔ (d.winner n).priority ≠ .safety ∧ d.context.Constrains := by
  rw [Barred, ← not_or, ← safety_winner (n := n)]

theorem permits_eq (n : Node) : Arbitration.permits (d.winner n) d.context.active = false ↔ d.Barred :=
  Arbitration.permits_eq_false.trans (barred_iff n).symm

/-- A barred dispute is refused, and any other one is a decision to carry the winner out. -/
theorem step_cases (s : Site) (arbiter : n.orchestrator.parts.arbiter = true) : ∃ metrics,
    (d.Barred → n.step s d.input = (n.counting metrics, [d.refusal n])) ∧
    (¬d.Barred → ∃ decision, decision.action = (d.winner n).action ∧ decision.params = (d.winner n).parameters ∧
      n.step s d.input = (n.counting metrics).step s (d.execution n decision)) := by
  have resolved : n.step s d.input = n.resolve s d.job d.here d.global d.context d.decision d.timeout := rfl
  rw [resolved]
  unfold resolve Orchestrator.arbitrate
  rw [if_pos arbiter]
  dsimp only [Arbitration.Arbiter.resolve, Arbitration.Arbiter.check]
  cases permitted : Arbitration.permits (d.winner n) d.context.active with
  | false =>
    have barred := (permits_eq n).mp permitted
    rw [winner] at permitted
    simp only [permitted]
    exact ⟨_, fun _ => rfl, fun free => (free barred).elim⟩
  | true =>
    have free : ¬d.Barred := fun barred => by simp [(permits_eq n).mpr barred] at permitted
    rw [winner] at permitted
    simp only [permitted]
    exact ⟨_, fun barred => (free barred).elim, fun _ => ⟨_, rfl, rfl, rfl⟩⟩

end Dispute

/-! ## Refusals -/

/-- Whether an output neither refuses a job nor puts a dispute. -/
def Output.Calm : Output → Prop
  | .finished _ (.refused _) => False
  | .next i | .wake i => i.disputes = false
  | _ => True

/-- Outputs that neither refuse a job nor put a dispute. -/
structure Calm (outputs : List Output) : Prop where
  each : ∀ o ∈ outputs, o.Calm

namespace Calm
variable {outputs more : List Output}

theorem nil : Calm [] := ⟨by simp⟩

theorem one {o : Output} (h : o.Calm) : Calm [o] := ⟨by simpa using h⟩

theorem append (h : Calm outputs) (h' : Calm more) : Calm (outputs ++ more) :=
  ⟨List.forall_mem_append.mpr ⟨h.each, h'.each⟩⟩

theorem map {α : Type} {f : α → Output} {xs : List α} (h : ∀ x ∈ xs, (f x).Calm) : Calm (xs.map f) :=
  ⟨List.forall_mem_map.mpr h⟩

theorem filter (h : Calm outputs) (p : Output → Bool) : Calm (outputs.filter p) :=
  ⟨fun o ho => h.each o (List.mem_of_mem_filter ho)⟩

theorem next (h : Calm outputs) : ∀ i ∈ outputs.filterMap next?, i.disputes = false := by
  intro i hi
  obtain ⟨o, ho, goes⟩ := List.mem_filterMap.mp hi
  cases o with
  | next j =>
    cases goes
    exact h.each _ ho
  | _ => cases goes

theorem wake (h : Calm outputs) : ∀ i ∈ outputs.filterMap wake?, i.disputes = false := by
  intro i hi
  obtain ⟨o, ho, goes⟩ := List.mem_filterMap.mp hi
  cases o with
  | wake j =>
    cases goes
    exact h.each _ ho
  | _ => cases goes

end Calm

section Steps
variable (s : Site) (n : Node)

theorem calm_execute (action : String) (params : Json) {ended : Except ExecutionFault Unit → Input}
    (plain : ∀ r, (ended r).disputes = false) : Calm (execute s action params ended) := by
  unfold execute
  split
  · exact (Calm.one (o := .performed action params) trivial).append (.one (o := .next _) (plain _))
  · exact .one (o := .next _) (plain _)

theorem calm_post (e : Envelope) {ended : Except TransportFault Unit → Input}
    (plain : ∀ r, (ended r).disputes = false) : Calm (post s e ended) := by
  unfold post
  split
  · exact .one (o := .next _) (plain _)
  · exact (Calm.one (o := .send e .atLeastOnce) trivial).append (.one (o := .next _) (plain _))

theorem calm_evaluate (seat : Seat Caller) (action : String) : Calm (n.evaluate s seat action).2 := by
  unfold evaluate
  dsimp only
  split
  · exact .one (o := .next _) rfl
  · exact .nil

theorem calm_submitted (caller : Caller) (r : Except Fault ProposalResult) : (submitted caller r).Calm := by
  cases caller <;> simp [submitted, Output.Calm, Input.disputes]

theorem calm_propagated (caller : Caller) (r : Except Fault PropagationReport) : (propagated caller r).Calm := by
  cases caller <;> simp [propagated, Output.Calm, Input.disputes]

theorem calm_absorb {outputs : List Output} (h : Calm outputs) (e : Engine.Output Caller) :
    Calm (absorb s (n, outputs) e).2 := by
  cases e with
  | send e qos => exact h.append (.one (o := .send e qos) trivial)
  | post errand e => exact h.append (calm_post s e fun _ => rfl)
  | announce e => exact h.append (.one (o := .announce e) trivial)
  | evaluate seat action => exact h.append (calm_evaluate s n seat action)
  | execute ticket action params => exact h.append (calm_execute s action params fun _ => rfl)
  | submitted caller r => exact h.append (.one (calm_submitted caller r))
  | propagated caller r => exact h.append (.one (calm_propagated caller r))
  | applied caller r => exact h.append (.one (o := .finished _ (.applied r)) trivial)
  | voted caller => exact h.append (.one (o := .finished _ .voted) trivial)

theorem calm_foldl_absorb {outputs : List Output} (h : Calm outputs) (es : List (Engine.Output Caller)) :
    Calm (es.foldl (absorb s) (n, outputs)).2 := by
  induction es generalizing n outputs with
  | nil => exact h
  | cons e es ih => exact ih _ (calm_absorb s n h e)

theorem plain_moreVotes {e : Engine Caller} {id : ProposalId} : ∀ i ∈ moreVotes e id, i.disputes = false := by
  unfold moreVotes
  split
  · split <;> simp [Input.disputes]
  · simp

theorem plain_moreAcks {e : Engine Caller} {id : ProposalId} : ∀ i ∈ moreAcks e id, i.disputes = false := by
  unfold moreAcks
  split
  · split <;> simp [Input.disputes]
  · simp

theorem calm_stepEngine (i : Engine.Input Caller) : Calm (n.stepEngine s i).2 := by
  have onward (before after : Engine Caller) : ∀ j ∈ goesOn before after i, j.disputes = false := by
    unfold goesOn
    split
    · exact plain_moreVotes
    · exact plain_moreVotes
    · exact plain_moreAcks
    · exact plain_moreAcks
    · split
      · exact plain_moreAcks
      · simp
    · simp
  have woken (after : Engine Caller) : ∀ j ∈ wakes after i, j.disputes = false := by
    unfold wakes
    split
    · exact plain_moreVotes
    · exact plain_moreAcks
    · simp
  exact ((calm_foldl_absorb s _ .nil _).append (.map (onward _ _))).append (.map (woken _))

theorem calm_follow (job : Nat) (step : Orchestrator.Step) : Calm (n.follow s job step).2 := by
  obtain ⟨orchestrator, events, course⟩ := step
  have announced : Calm (events.map .announce) := .map fun _ _ => trivial
  unfold follow
  cases course with
  | ended outcome => exact announced.append (.one (o := .finished job (.outcome outcome)) trivial)
  | waiting x call =>
    cases call with
    | execute action params => exact announced.append (calm_execute s action params fun _ => rfl)
    | propose action params timeout => exact announced.append (calm_stepEngine ..)
    | propagate id action params timeout => exact announced.append (calm_stepEngine ..)

theorem calm_raiseNext (t : Turn) (c : Reassignment.Cycle) (later : List Turn) :
    Calm (n.raiseNext s t c later).2 := by
  unfold raiseNext
  split
  · have woken : Calm (if later.isEmpty then [] else [.wake .openTurn]) := by
      split
      · exact .nil
      · exact .one (o := .wake .openTurn) rfl
    exact (Calm.one (o := .finished t.job (.report c.report)) trivial).append woken
  · exact calm_stepEngine ..

theorem calm_beginTurn (t : Turn) (later : List Turn) (begun : Option (Reassignment.Reassigner × Reassignment.Cycle)) :
    Calm (n.beginTurn s t later begun).2 := by
  cases begun with
  | none => exact .nil
  | some begun => exact calm_raiseNext ..

theorem calm_openTurn : Calm (n.openTurn s).2 := by
  unfold openTurn
  split
  · exact .nil
  · exact calm_beginTurn ..

/-- No step but one that takes a dispute refuses a job or puts a dispute. -/
theorem calm_step {i : Input} (plain : i.disputes = false) : Calm (n.step s i).2 := by
  cases i with
  | engine i => exact calm_stepEngine s n i
  | propose job action params timeout => exact calm_stepEngine ..
  | carryOut job d scope timeout => exact calm_follow ..
  | resolve job here global context decision timeout => cases plain
  | review job now =>
    simp only [step, review]
    split
    · split
      · exact calm_openTurn ..
      · exact .nil
    · exact .one (o := .finished job (.report _)) trivial
  | answer job a =>
    simp only [step, answer]
    split
    · exact calm_follow ..
    · exact .nil
  | openTurn => exact calm_openTurn s n
  | raised r =>
    simp only [step, raised]
    split
    · split
      · split
        · exact calm_raiseNext ..
        · exact .nil
      · exact .nil
    · exact .nil

end Steps

section Runs
variable (s : Site) {inputs : List Input} (plain : ∀ i ∈ inputs, i.disputes = false)
include plain

theorem calm_drive (fuel : Nat) (n : Node) : Calm (drive s fuel inputs n).2 := by
  induction fuel generalizing inputs n with
  | zero => exact .nil
  | succ fuel ih =>
    cases inputs with
    | nil => exact .nil
    | cons i rest =>
      obtain ⟨first, others⟩ := List.forall_mem_cons.mp plain
      have now := calm_step s n first
      exact (now.filter _).append (ih (List.forall_mem_append.mpr ⟨now.next, others⟩) _)

theorem calm_settle (fuel : Nat) (n : Node) : Calm (settle s fuel inputs n).2 := by
  induction fuel generalizing inputs n with
  | zero => exact .nil
  | succ fuel ih =>
    cases inputs with
    | nil => exact .nil
    | cons i rest =>
      obtain ⟨first, others⟩ := List.forall_mem_cons.mp plain
      have now := calm_drive s (List.forall_mem_singleton.mpr first) patience n
      exact (now.filter _).append (ih (List.forall_mem_append.mpr ⟨others, now.wake⟩) _)

theorem calm_handle (n : Node) : Calm (n.handle s inputs).2 := by
  have now := calm_drive s plain patience n
  exact (now.filter _).append (calm_settle s now.wake patience _)

end Runs

/-! ## Handling a dispute -/

/-- What a node makes of an input hangs on its step alone. -/
theorem handle_congr {s : Site} {n n' : Node} {i i' : Input} (same : n.step s i = n'.step s i') :
    n.handle s [i] = n'.handle s [i'] := by
  have driven (fuel : Nat) : drive s (fuel + 1) [i] n = drive s (fuel + 1) [i'] n' := by rw [drive, drive, same]
  rw [handle, handle, show patience = 999999 + 1 from rfl, driven]

/-- Nothing comes after a refusal. -/
theorem handle_of_refused {s : Site} {n n' : Node} {i : Input} {job : Nat} {f : Fault}
    (h : n.step s i = (n', [.finished job (.refused f)])) :
    n.handle s [i] = (n', [.finished job (.refused f)]) := by
  have driven (fuel : Nat) : drive s (fuel + 1) [i] n = (n', [.finished job (.refused f)]) := by
    have idle : drive s fuel [] n' = (n', []) := by cases fuel <;> rfl
    have onward : [Output.finished job (.refused f)].filterMap next? ++ [] = [] := rfl
    rw [drive, h]
    dsimp only
    rw [onward, idle]
    rfl
  have settled (fuel : Nat) : settle s fuel [] n' = (n', []) := by cases fuel <;> rfl
  have woken : [Output.finished job (.refused f)].filterMap wake? = [] := rfl
  rw [handle, show patience = 999999 + 1 from rfl, driven]
  dsimp only
  rw [woken, settled]
  rfl

/-- A dispute is refused just if it is barred: if a constraint is in force and the winner is not for
safety, which it is as soon as one of the two policies is. The node is then as it was, but for the
counts of its arbiter, and has called nobody. Any other dispute is handled as the order to carry out
what the winner asks for, at the winner's scope. Nothing but a dispute is ever refused. -/
theorem hard_constraints_bind (s : Site) (n : Node) (d : Dispute) (arbiter : n.orchestrator.parts.arbiter = true) :
    ((∃ detail, .finished d.job (.refused (.policyRejected detail)) ∈ (n.handle s [d.input]).2) ↔ d.Barred) ∧
    (d.Barred ↔ (d.winner n).priority ≠ .safety ∧ d.context.Constrains) ∧
    (d.here.priority = .safety ∨ d.global.priority = .safety ↔ (d.winner n).priority = .safety) ∧
    (d.winner n = d.here ∨ d.winner n = d.global) ∧
    (∃ metrics,
      (d.Barred → n.handle s [d.input] = (n.counting metrics, [d.refusal n])) ∧
      (¬d.Barred → ∃ decision, decision.action = (d.winner n).action ∧ decision.params = (d.winner n).parameters ∧
        n.handle s [d.input] = (n.counting metrics).handle s [d.execution n decision])) ∧
    ∀ (n : Node) (s : Site) i job f, .finished job (.refused f) ∈ (n.step s i).2 → ∃ d : Dispute, i = d.input := by
  obtain ⟨metrics, barred, free⟩ := d.step_cases s arbiter
  have refused (h : d.Barred) : n.handle s [d.input] = (n.counting metrics, [d.refusal n]) :=
    handle_of_refused (barred h)
  refine ⟨⟨fun ⟨detail, refusal⟩ => ?_, fun h => ?_⟩, Dispute.barred_iff n, Dispute.safety_winner.symm,
    Arbitration.winner_eq_or .., ⟨metrics, refused, fun h => ?_⟩, fun n s i job f refusal => ?_⟩
  · by_contra h
    obtain ⟨decision, -, -, same⟩ := free h
    rw [handle_congr same] at refusal
    exact (calm_handle s (List.forall_mem_singleton.mpr rfl) _).each _ refusal
  · rw [refused h]
    exact ⟨_, .head _⟩
  · obtain ⟨decision, action, params, same⟩ := free h
    exact ⟨decision, action, params, handle_congr same⟩
  · by_contra plain
    have quiet : i.disputes = false := by
      rw [← Bool.not_eq_true]
      exact fun h => plain (Dispute.eq_input_of_disputes h)
    exact (calm_step s n quiet).each _ refusal

/-! ## A drained battery -/

/-- A node with the standard weights. -/
def steady : Node :=
  { engine := Engine.create "A" {} true
    orchestrator :=
      { self := "A", safety := { model := SafetyModel.standard }, arbiter := { weights := WeightsOf.standard } }
    reassigner := { self := "A" } }

/-- Two policies to save power, neither of them for safety, when the battery is nearly empty. -/
def drained : Dispute :=
  { job := 7
    here := ⟨"load_shed", .object [("shed_percent", .int 10)], .performance, .here, 0.9, "A", .epoch⟩
    global := ⟨"attitude_adjust", .object [("angle_degrees", .int 2)], .availability, .swarm, 0.8, "B", .epoch⟩
    context := { battery := some 0.05 }
    decision := .ofNat 1
    timeout := 1000 }

/-- The same with a safety policy of little score against the better one. -/
def rescued : Dispute :=
  { drained with global := ⟨"safe_mode", .object [], .safety, .swarm, 0.01, "B", .epoch⟩ }

/-- The agent leads itself. -/
def alone : Site := { leadership := .fixed "A" (some "A") 1 }

/-- The node refuses to save power, but goes into safe mode. -/
theorem hard_constraints_bind_drained :
    steady.orchestrator.parts.arbiter = true ∧ steady.orchestrator.arbiter.weights.fault? = none ∧ drained.Barred ∧
      (∃ detail, .finished 7 (.refused (.policyRejected detail)) ∈ (steady.handle alone [drained.input]).2) ∧
      ¬rescued.Barred ∧ ∃ metrics decision, decision.action = "safe_mode" ∧
        steady.handle alone [rescued.input] =
          (steady.counting metrics).handle alone [rescued.execution steady decision] := by
  have barred : drained.Barred := ⟨⟨by decide, by decide⟩, .inr ⟨0.05, rfl, by decide +kernel⟩⟩
  have free : ¬rescued.Barred := fun h => h.1.2 rfl
  obtain ⟨-, -, safe, side, ⟨metrics, -, handed⟩, -⟩ := hard_constraints_bind alone steady rescued rfl
  obtain ⟨decision, action, -, same⟩ := handed free
  have winner : rescued.winner steady = rescued.global := by
    refine side.resolve_left fun here => ?_
    have kind : rescued.here.priority = .safety := here ▸ safe.mp (.inr rfl)
    cases kind
  exact ⟨rfl, by decide +kernel, barred, (hard_constraints_bind alone steady drained rfl).1.mpr barred, free, metrics,
    decision, action.trans (congrArg (·.action) winner), same⟩

end Node

end FleetCoordination
