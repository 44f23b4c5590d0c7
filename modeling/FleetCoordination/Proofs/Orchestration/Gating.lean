import Mathlib.Algebra.Ring.Int.Defs
import FleetCoordination.Proofs.Orchestration.Trial
/-!
# Gating

The executor carries out local decisions only. A coordinated decision asks the other parts
stage by stage and stops at the first stage that fails, and every decision ends, counted
once at its scope, counted once by how it ended and reported once.
-/
namespace FleetCoordination

/-- The decisions counted at a scope. -/
def OrchestrationMetrics.atScope (m : OrchestrationMetrics) : Scope → Nat
  | .here => m.here
  | .swarm => m.swarm
  | .constellation => m.constellation

def Event.isReport : Event → Bool
  | .decisionExecuted .. => true
  | _ => false

/-- The outcome of a course, if it has ended. -/
def Course.outcomes : Course → List ExecutionOutcome
  | .waiting .. => []
  | .ended o => [o]

namespace Orchestrator

/-- What is announced of outcomes at a time. -/
def reports (o : Orchestrator) (time : Timestamp) (outcomes : List ExecutionOutcome) : List Event :=
  outcomes.flatMap fun x => o.announce (report x time)

@[simp] theorem filter_announce (o : Orchestrator) (x : ExecutionOutcome) (time : Timestamp) :
    (o.announce (report x time)).filter Event.isReport = o.announce (report x time) := by
  unfold announce
  split <;> rfl

/-! ## One step -/

/-- A step that counts and reports the outcome of its course if it has one, and else
neither counts nor reports. -/
structure Settles (o : Orchestrator) (time : Timestamp) (s : Step) : Prop where
  setup : s.1.setup = o.setup
  scopes : s.1.metrics.atScope = o.metrics.atScope
  succeeded : s.1.metrics.succeeded = o.metrics.succeeded + s.2.2.outcomes.countP (·.success)
  failed : s.1.metrics.failed = o.metrics.failed + s.2.2.outcomes.countP (!·.success)
  reports : s.2.1.filter Event.isReport = o.reports time s.2.2.outcomes

namespace Settles
variable {o : Orchestrator} {time : Timestamp} {x : Execution}

theorem waiting (o : Orchestrator) (time : Timestamp) (x : Execution) (call : Call) :
    o.Settles time (o, [], .waiting x call) :=
  ⟨rfl, rfl, rfl, rfl, rfl⟩

theorem finish (o : Orchestrator) (time : Timestamp) (x : Execution) (failure : Option Fault) :
    o.Settles time (o.finish time x failure) := by
  have reported : (o.finish time x failure).2.1.filter Event.isReport =
      o.reports time (o.finish time x failure).2.2.outcomes := by
    simp [Orchestrator.finish, Orchestrator.reports, Course.outcomes]
  cases failure with
  | none => exact ⟨rfl, rfl, rfl, rfl, reported⟩
  | some _ => exact ⟨rfl, rfl, rfl, rfl, reported⟩

/-- The simulator and the last compliance can have changed before. -/
theorem of_update (safety : SafetySimulator) (lastCompliance : Float) {s : Step}
    (h : { o with safety, metrics := { o.metrics with lastCompliance } }.Settles time s) : o.Settles time s :=
  ⟨h.setup, h.scopes, h.succeeded, h.failed, h.reports⟩

theorem onProposal (o : Orchestrator) (time : Timestamp) (x : Execution) (r : Except Fault ProposalResult) :
    o.Settles time (o.onProposal time x r) := by
  unfold Orchestrator.onProposal
  split
  · exact finish ..
  · dsimp only
    split
    · exact finish ..
    · exact waiting ..

theorem onReport (o : Orchestrator) (time : Timestamp) (x : Execution) (r : Except Fault PropagationReport) :
    o.Settles time (o.onReport time x r) := by
  unfold Orchestrator.onReport
  split
  · exact finish ..
  · next r => exact of_update o.safety r.compliance (finish ..)

theorem resume (o : Orchestrator) (time : Timestamp) (x : Execution) (a : Answer) :
    o.Settles time (o.resume time x a) := by
  unfold Orchestrator.resume
  split
  · exact finish ..
  · exact finish ..
  · exact onProposal ..
  · exact onReport ..

theorem coordinate (o : Orchestrator) (scene : Scene) (x : Execution) (timeout : Nat) :
    o.Settles scene.time (o.coordinate scene x timeout) := by
  obtain ⟨safety, simulated⟩ : ∃ safety, (o.simulate scene x).1 = { o with safety } := by
    unfold simulate
    split <;> exact ⟨_, rfl⟩
  unfold Orchestrator.coordinate
  split
  · exact finish ..
  · dsimp only
    rw [simulated]
    refine of_update safety o.metrics.lastCompliance ?_
    split
    · next v _ =>
      obtain ⟨setup, scopes, succeeded, failed, reports⟩ := finish { o with safety } scene.time (o.simulate scene x).2
        (some (.unsafeAction (o.simulate scene x).2.decision.action v.total (blockText v)))
      refine ⟨setup, scopes, succeeded, failed, ?_⟩
      have unreported (b : Bool) (e : Event) (h : e.isReport = false) :
          (if b = true then [e] else []).filter Event.isReport = [] := by split <;> simp [h]
      rw [List.filter_append, announce, unreported _ _ rfl]
      exact reports
    · split
      · exact waiting ..
      · exact finish ..

end Settles

theorem reports_congr {o : Orchestrator} (o' : Orchestrator) (same : o'.setup = o.setup) (time : Timestamp)
    (outcomes : List ExecutionOutcome) : o'.reports time outcomes = o.reports time outcomes := by
  have parts : o'.parts = o.parts := congrArg (·.2.2) same
  simp only [reports, announce, parts]

theorem safety_onReport (o : Orchestrator) (time : Timestamp) (x : Execution) (r : Except Fault PropagationReport) :
    (o.onReport time x r).1.safety = o.safety := by
  unfold onReport
  split <;> rfl

theorem safety_onProposal (o : Orchestrator) (time : Timestamp) (x : Execution) (r : Except Fault ProposalResult) :
    (o.onProposal time x r).1.safety = o.safety := by
  unfold onProposal
  split
  · rfl
  · dsimp only
    split <;> rfl

theorem safety_resume (o : Orchestrator) (time : Timestamp) (x : Execution) (a : Answer) :
    (o.resume time x a).1.safety = o.safety := by
  unfold resume
  split
  · rfl
  · rfl
  · exact o.safety_onProposal ..
  · exact o.safety_onReport ..

theorem safety_coordinate (o : Orchestrator) (scene : Scene) (x : Execution) (timeout : Nat) :
    (o.coordinate scene x timeout).1.safety =
      if o.parts.missing? x.outcome.effective = none then (o.simulate scene x).1.safety else o.safety := by
  unfold coordinate
  cases missing : o.parts.missing? x.outcome.effective with
  | some part => rfl
  | none =>
    dsimp only
    split
    · rfl
    · split <;> rfl

theorem atScope_countScope (m : OrchestrationMetrics) (requested effective scope : Scope) :
    (countScope m requested effective).atScope scope = m.atScope scope + if scope = effective then 1 else 0 := by
  unfold countScope
  by_cases same : requested = effective <;> simp only [same, if_true, if_false] <;>
    cases effective <;> cases scope <;> rfl

end Orchestrator

/-! ## Runs -/

/-- By how much a count went up in some stretches. -/
def gain (f : Orchestrator → Nat) (stretches : List Stretch) : Int :=
  (stretches.map fun s => (f s.after : Int) - f s.before).sum

theorem gain_singleton (f : Orchestrator → Nat) (s : Stretch) : gain f [s] = (f s.after : Int) - f s.before := by
  simp [gain]

theorem gain_append (f : Orchestrator → Nat) (ss ss' : List Stretch) : gain f (ss ++ ss') = gain f ss + gain f ss' := by
  simp [gain]

/-- Where a stretch settles, a count that grows with the outcomes gains what they give. -/
theorem gain_of {f : Orchestrator → Nat} {o : Orchestrator} {s : Orchestrator.Step} {n : Nat} (h : f s.1 = f o + n) :
    gain f [.of o s] = n := by
  rw [gain_singleton]
  simp only [Stretch.of, h]
  omega

namespace Trial
variable {t : Trial} {calls : List Call} {stretches : List Stretch} {course : Course}

/-- What a trial has counted and reported so far. -/
structure Accounts (t : Trial) (stretches : List Stretch) (course : Course) : Prop where
  scopes : ∀ scope, gain (·.metrics.atScope scope) stretches = if scope = t.scope then 1 else 0
  succeeded : gain (·.metrics.succeeded) stretches = course.outcomes.countP (·.success)
  failed : gain (·.metrics.failed) stretches = course.outcomes.countP (!·.success)
  reports : ∃ time, (stretches.flatMap (·.events)).filter Event.isReport = t.orchestrator.reports time course.outcomes

/-- The simulator is called in the first stretch if the decision gets as far as safety, and
not called otherwise. -/
structure Simulates (t : Trial) (first : Stretch) (later : List Stretch) : Prop where
  here : first.after.safety =
    if .safety ∈ t.tried t.stages then
      (first.before.safety.simulate t.decision.action t.decision.params t.scene.neighbors).1
    else first.before.safety
  later : ∀ s ∈ later, s.after.safety = s.before.safety

/-- The orchestrator that has counted the decision at its scope. -/
def counted (t : Trial) : Orchestrator :=
  { t.orchestrator with metrics := Orchestrator.countScope t.orchestrator.metrics t.requested t.scope }

theorem settles_start (t : Trial) :
    t.counted.Settles t.scene.time t.opening := by
  unfold opening Orchestrator.start
  rw [t.scope_eq]
  dsimp only
  split
  · exact .waiting ..
  · exact .coordinate ..

theorem accounts_start (t : Trial) : t.Accounts [.of t.orchestrator t.opening] t.opening.2.2 := by
  have settles := t.settles_start
  have kept : ∀ m, (Orchestrator.countScope m t.requested t.scope).succeeded = m.succeeded ∧
      (Orchestrator.countScope m t.requested t.scope).failed = m.failed := by
    intro m
    unfold Orchestrator.countScope
    split <;> cases t.scope <;> exact ⟨rfl, rfl⟩
  obtain ⟨succeeded, failed⟩ := kept t.orchestrator.metrics
  constructor
  case scopes =>
    intro scope
    have counts := congrFun settles.scopes scope
    rw [counted, Orchestrator.atScope_countScope] at counts
    rw [gain_of (f := (·.metrics.atScope scope)) counts]
    split <;> rfl
  case succeeded => exact gain_of (settles.succeeded.trans (congrArg (· + _) succeeded))
  case failed => exact gain_of (settles.failed.trans (congrArg (· + _) failed))
  case reports =>
    have own := settles.reports.trans (Orchestrator.reports_congr (o := t.orchestrator) t.counted rfl ..)
    exact ⟨t.scene.time, by simpa [Stretch.of] using own⟩

theorem safety_opening (t : Trial) : t.opening.1.safety =
    if .safety ∈ t.tried t.stages then
      (t.orchestrator.safety.simulate t.decision.action t.decision.params t.scene.neighbors).1
    else t.orchestrator.safety := by
  simp only [mem_tried_safety, ← t.fault?_eq_none .parts, fault?, Option.map_eq_none_iff]
  unfold opening Orchestrator.start
  rw [t.scope_eq]
  dsimp only
  by_cases here : t.scope = .here
  · simp [here]
  · rw [if_neg here, Orchestrator.safety_coordinate]
    by_cases present : t.orchestrator.parts.missing? t.scope = none
    · by_cases far : t.scope = .constellation <;> simp [present, far, Orchestrator.simulate]
    · simp [present]

/-- An answer adds what its own step counts and reports. -/
theorem Accounts.answered {x : Execution} {call : Call} (h : t.Accounts stretches (.waiting x call))
    {o : Orchestrator} (same : o.setup = t.orchestrator.setup) (time : Timestamp) (a : Answer) :
    t.Accounts (stretches ++ [.of o (o.resume time x a)]) (o.resume time x a).2.2 := by
  have settles := Orchestrator.Settles.resume o time x a
  obtain ⟨_, silent⟩ := h.reports
  constructor
  case scopes =>
    intro scope
    have still : gain (·.metrics.atScope scope) [.of o (o.resume time x a)] = 0 :=
      gain_of (n := 0) (congrFun settles.scopes scope)
    rw [gain_append, h.scopes, still, Int.add_zero]
  case succeeded => rw [gain_append, h.succeeded, gain_of settles.succeeded]; simp [Course.outcomes]
  case failed => rw [gain_append, h.failed, gain_of settles.failed]; simp [Course.outcomes]
  case reports =>
    have own := settles.reports.trans (Orchestrator.reports_congr o same ..)
    refine ⟨time, ?_⟩
    rw [List.flatMap_append, List.filter_append, silent]
    simpa [Stretch.of, Orchestrator.reports, Course.outcomes] using own

namespace Run

theorem stands (h : t.Run calls stretches course) : t.Stands calls course := by
  induction h with
  | start => exact .start t
  | answered _ _ time same ih => exact ih.answered same time

theorem accounts (h : t.Run calls stretches course) : t.Accounts stretches course := by
  induction h with
  | start => exact t.accounts_start
  | answered _ _ time same ih => exact ih.answered same time _

theorem simulates (h : t.Run calls stretches course) :
    ∃ later, stretches = .of t.orchestrator t.opening :: later ∧ t.Simulates (.of t.orchestrator t.opening) later := by
  induction h with
  | start => exact ⟨[], rfl, t.safety_opening, by simp⟩
  | @answered calls stretches x call _ o time same ih =>
    obtain ⟨later, split, simulates⟩ := ih
    refine ⟨later ++ [.of o (o.resume time x (t.answer call))], by rw [split, List.cons_append], simulates.here, ?_⟩
    exact List.forall_mem_append.mpr ⟨simulates.later, List.forall_mem_singleton.mpr (o.safety_resume ..)⟩

/-- A trial that waits goes on until it has ended: it makes one of its calls each time. -/
theorem ends (h : t.Run calls stretches course) : ∃ calls stretches o, t.Run calls stretches (.ended o) := by
  induction left : t.calls.length - calls.length using Nat.strongRecOn generalizing calls stretches course with
  | ind n ih =>
    cases course with
    | ended o => exact ⟨calls, stretches, o, h⟩
    | waiting x call =>
      have made := h.stands.calls_prefix.length_le
      rw [Course.pending, List.length_append, List.length_singleton] at made
      refine ih _ ?_ (h.answered t.orchestrator t.scene.time rfl) rfl
      rw [List.length_append, List.length_singleton]
      omega

end Run

/-- What an outcome says of its trial, with the calls that led to it. -/
structure Ends (t : Trial) (calls : List Call) (o : ExecutionOutcome) : Prop where
  concerns : t.Concerns o
  success : o.success = true ↔ o.failure = none
  here : t.scope = .here → calls = [t.execution] ∧
    o.failure = match t.executed with
      | .error cause => some (.execution cause)
      | .ok _ => none
  coordinated : t.scope ≠ .here →
    (o.success = true ∧ (∀ s ∈ t.stages, t.Passes s) ∧ calls = t.stages.filterMap t.call?) ∨
      ∃ passed s later f, t.stages = passed ++ s :: later ∧ (∀ p ∈ passed, t.Passes p) ∧ ¬t.Passes s ∧
        t.fault? s = some f ∧ o.failure = some f ∧ calls = (passed ++ [s]).filterMap t.call?

theorem ends_of_failure {o : ExecutionOutcome} (concerns : t.Concerns o) (failure : o.failure = t.failure) :
    t.Ends t.calls o := by
  have success : o.success = true ↔ o.failure = none := Option.isNone_iff_eq_none
  refine ⟨concerns, success, fun here => ?_, fun coordinated => ?_⟩
  · rw [failure]
    exact ⟨if_pos here, if_pos here⟩
  · rcases failure_cases coordinated with ⟨clean, all⟩ | ⟨passed, s, later, f, split, before, fails, fault, failed⟩
    · exact .inl ⟨success.mpr (failure.trans clean), all, calls_of_passes coordinated all⟩
    · exact .inr ⟨passed, s, later, f, split, before, fails, fault, failure.trans failed,
        calls_of_fails coordinated split before fails⟩

/-- A decision always gets an outcome. On the way it calls the other parts in the order of
its scope's stages, as far as it passes them, and the executor only if its scope is here. -/
theorem gating (t : Trial) :
    (∃ calls stretches o, t.Run calls stretches (.ended o)) ∧
      (∀ r, t.propagated = .ok r → t.needed.isNaN = false → r.compliance.isNaN = false →
        (t.Passes .compliance ↔ t.needed ≤ r.compliance)) ∧
      ∀ calls stretches course, t.Run calls stretches course →
        calls ++ course.pending <+: t.calls ∧
        (t.scope ≠ .here → ∀ action params, .execute action params ∉ calls ++ course.pending) ∧
        (∃ first later, stretches = first :: later ∧ first.before = t.orchestrator ∧ t.Simulates first later) ∧
        t.Accounts stretches course ∧ ∀ o, course = .ended o → t.Ends calls o := by
  refine ⟨Run.ends .start, fun r propagated h h' => ?_, fun calls stretches course run => ?_⟩
  · simpa [Passes, propagated] using Scalar.not_lt_iff_le h' h
  · have made := run.stands.calls_prefix
    obtain ⟨later, split, simulates⟩ := run.simulates
    refine ⟨made, fun coordinated action params called => ?_, ⟨_, later, split, rfl, simulates⟩, run.accounts, ?_⟩
    · exact t.execute_notMem coordinated action params (made.subset called)
    · rintro o rfl
      cases run.stands with
      | ended concerns failure => exact ends_of_failure concerns failure

end Trial

end FleetCoordination
