import FleetCoordination.Orchestration
import FleetCoordination.Proofs.Scalar
/-!
# Trials of a decision

A decision put to an orchestrator, whatever the parts that it calls on answer and whatever
the orchestrator does besides while it waits for them. A coordinated decision is tried stage
by stage, and the first stage that fails ends it; every decision is counted and reported
once.
-/
namespace FleetCoordination

/-- A decision put to an orchestrator, with what the parts that it may call on would answer. -/
structure Trial where
  orchestrator : Orchestrator
  scene : Scene
  decision : Decision
  requested : Scope
  timeout : Nat
  executed : Except ExecutionFault Unit
  proposed : Except Fault ProposalResult
  propagated : Except Fault PropagationReport

/-- What a coordinated decision has to pass. -/
inductive Stage
  | parts
  | safety
  | leadership
  | commit
  | report
  | compliance
  deriving DecidableEq

namespace Trial
variable (t : Trial)

/-- The scope at which the decision is carried out. -/
def scope : Scope :=
  if t.orchestrator.features.forceLocal = true ∨ t.orchestrator.features.swarmEnabled = false then .here
  else t.requested

/-- The stages before anything is proposed. -/
def preface : List Stage := .parts :: ((if t.scope = .constellation then [.safety] else []) ++ [.leadership])

/-- The stages of the scope in their order. -/
def stages : List Stage := t.preface ++ [.commit, .report, .compliance]

/-- What the simulator says of the decision. -/
def verdict : Verdict :=
  (t.orchestrator.safety.simulate t.decision.action t.decision.params t.scene.neighbors).2

/-- The compliance that the scope requires. -/
def needed : Float :=
  if t.scope = .constellation then t.orchestrator.settings.constellationCompliance
  else t.orchestrator.settings.swarmCompliance

def Passes : Stage → Prop
  | .parts =>
    let parts := t.orchestrator.parts
    parts.leadership = true ∧ parts.consensus = true ∧ parts.registry = true ∧ parts.propagator = true ∧
      (t.scope = .constellation → parts.safety = true)
  | .safety => t.verdict.safe = true
  | .leadership => t.scene.leadership.isLeader = true
  | .commit => ∃ r, t.proposed = .ok r ∧ r.outcome.committed = true
  | .report => ∃ r, t.propagated = .ok r
  | .compliance => ∀ r, t.propagated = .ok r → ¬r.compliance < t.needed

/-- The fault with which a stage fails. -/
def fault? : Stage → Option Fault
  | .parts => (t.orchestrator.parts.missing? t.scope).map .dependencyUnavailable
  | .safety =>
    if t.verdict.safe then none
    else some (.unsafeAction t.decision.action t.verdict.total (Orchestrator.blockText t.verdict))
  | .leadership =>
    if t.scene.leadership.isLeader then none else some (.notLeader t.scene.leadership.leader)
  | .commit =>
    match t.proposed with
    | .error f => some f
    | .ok r => Orchestrator.rejection? r
  | .report =>
    match t.propagated with
    | .error f => some f
    | .ok _ => none
  | .compliance =>
    match t.propagated with
    | .error _ => none
    | .ok r => if r.compliance < t.needed then some (.complianceShortfall r.compliance t.needed) else none

/-- The stages up to the first that fails, itself among them. -/
def tried : List Stage → List Stage
  | [] => []
  | s :: later => s :: if t.fault? s = none then tried later else []

def execution : Call := .execute t.decision.action t.decision.params

def proposal : Call := .propose t.decision.action t.decision.params t.timeout

def propagation (r : ProposalResult) : Call :=
  .propagate r.id t.decision.action t.decision.params t.orchestrator.settings.propagationTimeoutMs

/-- The call that a stage makes. -/
def call? : Stage → Option Call
  | .commit => some t.proposal
  | .report =>
    match t.proposed with
    | .error _ => none
    | .ok r => some (t.propagation r)
  | _ => none

/-- All calls of the trial. -/
def calls : List Call :=
  if t.scope = .here then [t.execution]
  else (t.tried t.stages).filterMap t.call?

/-- The fault that the trial ends with. -/
def failure : Option Fault :=
  if t.scope = .here then
    match t.executed with
    | .error cause => some (.execution cause)
    | .ok _ => none
  else t.stages.findSome? t.fault?

def answer : Call → Answer
  | .execute .. => .executed t.executed
  | .propose .. => .proposed t.proposed
  | .propagate .. => .propagated t.propagated

end Trial

/-! ## Runs -/

/-- What an orchestrator keeps for good. -/
def Orchestrator.setup (o : Orchestrator) : OrchestrationSettings × Features × Parts :=
  (o.settings, o.features, o.parts)

/-- One stretch of a trial, from one wait to the next. -/
structure Stretch where
  before : Orchestrator
  after : Orchestrator
  events : List Event

def Stretch.of (o : Orchestrator) (s : Orchestrator.Step) : Stretch := ⟨o, s.1, s.2.1⟩

/-- The call that a course waits for. -/
def Course.pending : Course → List Call
  | .waiting _ call => [call]
  | .ended _ => []

/-- The first step of a trial. -/
def Trial.opening (t : Trial) : Orchestrator.Step :=
  t.orchestrator.start t.scene t.decision t.requested t.timeout

/-- How far a trial can get: the calls that were answered, the stretches, and the course it is
in. Where a stretch begins the orchestrator may be in any state, but with its set-up. -/
inductive Trial.Run (t : Trial) : List Call → List Stretch → Course → Prop
  | start : Run t [] [.of t.orchestrator t.opening] t.opening.2.2
  | answered {calls : List Call} {stretches : List Stretch} {x : Execution} {call : Call}
      (past : Run t calls stretches (.waiting x call)) (o : Orchestrator) (time : Timestamp)
      (same : o.setup = t.orchestrator.setup) :
      Run t (calls ++ [call]) (stretches ++ [.of o (o.resume time x (t.answer call))])
        (o.resume time x (t.answer call)).2.2

/-! ## Stages -/

namespace Trial
variable {t : Trial}

theorem scope_eq (t : Trial) : Orchestrator.effectiveScope t.orchestrator.features t.requested = t.scope := by
  simp [Orchestrator.effectiveScope, scope]

theorem required_eq (t : Trial) : Orchestrator.required t.orchestrator.settings t.scope = t.needed := by
  unfold needed
  cases t.scope <;> rfl

theorem rejection?_eq_none {r : ProposalResult} :
    Orchestrator.rejection? r = none ↔ r.outcome.committed = true := by
  unfold Orchestrator.rejection?
  cases r.outcome <;> simp [Outcome.committed]

theorem missing?_eq_none {p : Parts} {scope : Scope} : p.missing? scope = none ↔
    p.leadership = true ∧ p.consensus = true ∧ p.registry = true ∧ p.propagator = true ∧
      (scope = .constellation → p.safety = true) := by
  unfold Parts.missing?
  cases p.leadership <;> cases p.consensus <;> cases p.registry <;> cases p.propagator <;> simp

theorem fault?_eq_none (t : Trial) (s : Stage) : t.fault? s = none ↔ t.Passes s := by
  cases s with
  | parts => simp [fault?, Passes, missing?_eq_none]
  | safety => simp [fault?, Passes]
  | leadership => simp [fault?, Passes]
  | commit => cases h : t.proposed <;> simp [fault?, Passes, h, rejection?_eq_none]
  | report => cases h : t.propagated <;> simp [fault?, Passes, h]
  | compliance => cases h : t.propagated <;> simp [fault?, Passes, h]

theorem tried_of_passes {passed : List Stage} (h : ∀ s ∈ passed, t.Passes s) (later : List Stage) :
    t.tried (passed ++ later) = passed ++ t.tried later := by
  induction passed with
  | nil => rfl
  | cons s rest ih =>
    obtain ⟨first, others⟩ := List.forall_mem_cons.mp h
    rw [List.cons_append, tried, if_pos ((t.fault?_eq_none s).mpr first), ih others, List.cons_append]

theorem tried_of_fails {s : Stage} (h : ¬t.Passes s) (later : List Stage) : t.tried (s :: later) = [s] := by
  rw [tried, if_neg (mt (t.fault?_eq_none s).mp h)]

theorem tried_prefix (t : Trial) (stages : List Stage) : t.tried stages <+: stages := by
  induction stages with
  | nil => exact List.nil_prefix
  | cons s later ih =>
    unfold tried
    split
    · exact (List.prefix_cons_inj s).mpr ih
    · exact (List.prefix_cons_inj s).mpr List.nil_prefix

theorem passes_snoc {passed : List Stage} (before : ∀ p ∈ passed, t.Passes p) {s : Stage} (last : t.Passes s) :
    ∀ p ∈ passed ++ [s], t.Passes p :=
  List.forall_mem_append.mpr ⟨before, List.forall_mem_singleton.mpr last⟩

/-- A decision is simulated if it is for the constellation and all parts are there. -/
theorem mem_tried_safety (t : Trial) : .safety ∈ t.tried t.stages ↔ t.scope = .constellation ∧ t.Passes .parts := by
  by_cases far : t.scope = .constellation
  · by_cases present : t.Passes .parts
    · simp [stages, preface, far, tried, (t.fault?_eq_none .parts).mpr present, present]
    · simp [stages, preface, far, t.tried_of_fails present, present]
  · have without : .safety ∉ t.stages := by simp [stages, preface, far]
    exact iff_of_false (fun h => without ((t.tried_prefix _).subset h)) fun h => far h.1

/-- A trial fails with the fault of the first stage that fails. -/
theorem failure_cases (coordinated : t.scope ≠ .here) :
    (t.failure = none ∧ ∀ s ∈ t.stages, t.Passes s) ∨
      ∃ passed s later f, t.stages = passed ++ s :: later ∧ (∀ p ∈ passed, t.Passes p) ∧ ¬t.Passes s ∧
        t.fault? s = some f ∧ t.failure = some f := by
  simp only [failure, if_neg coordinated]
  cases first : t.stages.findSome? t.fault? with
  | none =>
    exact .inl ⟨rfl, fun s hs => (t.fault?_eq_none s).mp (List.findSome?_eq_none_iff.mp first s hs)⟩
  | some f =>
    obtain ⟨passed, s, later, split, fails, before⟩ := List.findSome?_eq_some_iff.mp first
    refine .inr ⟨passed, s, later, f, split, fun p hp => (t.fault?_eq_none p).mp (before p hp), ?_, fails, rfl⟩
    rw [← t.fault?_eq_none s, fails]
    exact Option.some_ne_none f

section Ends
variable {passed later : List Stage} {s : Stage}

theorem failure_of_fails (coordinated : t.scope ≠ .here) (split : t.stages = passed ++ s :: later)
    (before : ∀ p ∈ passed, t.Passes p) (fails : ¬t.Passes s) : t.failure = t.fault? s := by
  obtain ⟨f, fault⟩ := Option.ne_none_iff_exists'.mp (mt (t.fault?_eq_none s).mp fails)
  have quiet p (hp : p ∈ passed) : t.fault? p = none := (t.fault?_eq_none p).mpr (before p hp)
  rw [failure, if_neg coordinated, split, List.findSome?_append, List.findSome?_eq_none_iff.mpr quiet, Option.none_or,
    List.findSome?_cons, fault]

theorem calls_of_fails (coordinated : t.scope ≠ .here) (split : t.stages = passed ++ s :: later)
    (before : ∀ p ∈ passed, t.Passes p) (fails : ¬t.Passes s) : t.calls = (passed ++ [s]).filterMap t.call? := by
  rw [calls, if_neg coordinated, split, tried_of_passes before, tried_of_fails fails]

/-- A trial makes the calls up to a stage that it reaches. -/
theorem calls_of_reaches (coordinated : t.scope ≠ .here) (split : t.stages = passed ++ s :: later)
    (before : ∀ p ∈ passed, t.Passes p) : (passed ++ [s]).filterMap t.call? <+: t.calls := by
  rw [calls, if_neg coordinated, split, tried_of_passes before, tried]
  exact ((List.prefix_append_right_inj passed).mpr (List.cons_prefix_cons.mpr ⟨rfl, List.nil_prefix⟩)).filterMap _

theorem failure_of_passes (coordinated : t.scope ≠ .here) (all : ∀ p ∈ t.stages, t.Passes p) : t.failure = none := by
  rw [failure, if_neg coordinated, List.findSome?_eq_none_iff]
  exact fun p hp => (t.fault?_eq_none p).mpr (all p hp)

theorem calls_of_passes (coordinated : t.scope ≠ .here) (all : ∀ p ∈ t.stages, t.Passes p) :
    t.calls = t.stages.filterMap t.call? := by
  have tried := tried_of_passes all []
  rw [List.append_nil] at tried
  rw [calls, if_neg coordinated, tried, Trial.tried, List.append_nil]

@[simp] theorem filterMap_preface (t : Trial) : t.preface.filterMap t.call? = [] := by
  unfold preface
  split <;> rfl

theorem filterMap_commit (t : Trial) : (t.preface ++ [Stage.commit]).filterMap t.call? = [t.proposal] := by
  simp [call?]

theorem filterMap_report {r : ProposalResult} (proposed : t.proposed = .ok r) :
    (t.preface ++ [Stage.commit] ++ [Stage.report]).filterMap t.call? = [t.proposal, t.propagation r] := by
  simp [call?, proposed]

theorem filterMap_compliance {r : ProposalResult} (proposed : t.proposed = .ok r) :
    (t.preface ++ [Stage.commit] ++ [Stage.report] ++ [Stage.compliance]).filterMap t.call? =
      [t.proposal, t.propagation r] := by
  rw [List.filterMap_append, filterMap_report proposed]
  rfl

end Ends

/-! ## Where a trial stands -/

/-- Whether an outcome is one of the trial's decision, apart from how it ends. -/
structure Concerns (t : Trial) (o : ExecutionOutcome) : Prop where
  decision : o.decision = t.decision.id
  action : o.action = t.decision.action
  requested : o.requested = t.requested
  effective : o.effective = t.scope

theorem Concerns.failing {o : ExecutionOutcome} (h : t.Concerns o) (failure : Option Fault) :
    t.Concerns { o with failure } :=
  ⟨h.decision, h.action, h.requested, h.effective⟩

/-- The course that a trial is in when some calls have been answered. -/
inductive Stands (t : Trial) : List Call → Course → Prop
  | executing {x : Execution} (decision : x.decision = t.decision) (concerns : t.Concerns x.outcome)
      (here : t.scope = .here) : Stands t [] (.waiting x t.execution)
  | proposing {x : Execution} (decision : x.decision = t.decision) (concerns : t.Concerns x.outcome)
      (coordinated : t.scope ≠ .here) (before : ∀ s ∈ t.preface, t.Passes s) : Stands t [] (.waiting x t.proposal)
  | propagating {x : Execution} {r : ProposalResult} (decision : x.decision = t.decision)
      (concerns : t.Concerns x.outcome) (coordinated : t.scope ≠ .here) (before : ∀ s ∈ t.preface, t.Passes s)
      (proposed : t.proposed = .ok r) (committed : r.outcome.committed = true) :
      Stands t [t.proposal] (.waiting x (t.propagation r))
  | ended {o : ExecutionOutcome} (concerns : t.Concerns o) (failure : o.failure = t.failure) :
      Stands t t.calls (.ended o)

namespace Stands
variable {x : Execution} {passed later : List Stage} {s : Stage}

/-- A stage that fails ends the trial with its fault. -/
theorem fails (concerns : t.Concerns x.outcome) (coordinated : t.scope ≠ .here)
    (split : t.stages = passed ++ s :: later) (before : ∀ p ∈ passed, t.Passes p) {f : Fault}
    (fault : t.fault? s = some f) :
    Stands t ((passed ++ [s]).filterMap t.call?) (.ended { x.outcome with failure := some f }) := by
  have fails : ¬t.Passes s := by
    rw [← t.fault?_eq_none s, fault]
    exact Option.some_ne_none f
  rw [← calls_of_fails coordinated split before fails]
  refine .ended (concerns.failing _) ?_
  rw [failure_of_fails coordinated split before fails, fault]

/-- Once the stages before it are passed, leadership decides whether a trial goes on to propose. -/
theorem lead {o : Orchestrator} {checked : List Stage} (decision : x.decision = t.decision)
    (concerns : t.Concerns x.outcome) (coordinated : t.scope ≠ .here) (split : t.preface = checked ++ [.leadership])
    (before : ∀ s ∈ checked, t.Passes s) :
    Stands t [] (if t.scene.leadership.isLeader then
        (o, [], .waiting x (.propose x.decision.action x.decision.params t.timeout))
      else o.finish t.scene.time x (some (.notLeader t.scene.leadership.leader)) : Orchestrator.Step).2.2 := by
  split
  · next leads =>
    rw [decision]
    exact .proposing decision concerns coordinated (split ▸ passes_snoc before leads)
  · next follows =>
    have fault : t.fault? .leadership = some (.notLeader t.scene.leadership.leader) := by simp [fault?, follows]
    have stages : t.stages = checked ++ .leadership :: [.commit, .report, .compliance] := by simp [Trial.stages, split]
    have silent := t.filterMap_preface
    rw [split] at silent
    exact silent ▸ fails concerns coordinated stages before fault

theorem start (t : Trial) : Stands t [] t.opening.2.2 := by
  unfold opening Orchestrator.start
  rw [t.scope_eq]
  dsimp only
  split
  · next here => exact .executing rfl ⟨rfl, rfl, rfl, rfl⟩ here
  · next coordinated =>
    unfold Orchestrator.coordinate
    cases missing : t.orchestrator.parts.missing? t.scope with
    | some part =>
      have fault : t.fault? .parts = some (.dependencyUnavailable part) := by simp [fault?, missing]
      have split : t.stages = [] ++ .parts :: t.stages.tail := rfl
      exact fails ⟨rfl, rfl, rfl, rfl⟩ coordinated split (by simp) fault
    | none =>
      have present : t.Passes .parts := missing?_eq_none.mp missing
      unfold Orchestrator.simulate
      dsimp only
      by_cases far : t.scope = .constellation
      · have preface : t.preface = [.parts, .safety] ++ [.leadership] := by simp [Trial.preface, far]
        rw [if_pos far]
        cases safe : t.verdict.safe with
        | true =>
          have allowed : Option.filter (fun v => !v.safe) (some t.verdict) = none := by simp [safe]
          have harmless : t.Passes .safety := safe
          simp only [verdict] at allowed
          simp only [allowed]
          exact lead rfl ⟨rfl, rfl, rfl, rfl⟩ coordinated preface (by simp [present, harmless])
        | false =>
          have blocked : Option.filter (fun v => !v.safe) (some t.verdict) = some t.verdict := by simp [safe]
          simp only [verdict] at blocked
          simp only [blocked]
          have fault : t.fault? .safety =
              some (.unsafeAction t.decision.action t.verdict.total (Orchestrator.blockText t.verdict)) := by
            simp [fault?, safe]
          have stages : t.stages = [.parts] ++ .safety :: [.leadership, .commit, .report, .compliance] := by
            simp [Trial.stages, preface]
          exact fails ⟨rfl, rfl, rfl, rfl⟩ coordinated stages (by simp [present]) fault
      · have preface : t.preface = [.parts] ++ [.leadership] := by simp [Trial.preface, far]
        rw [if_neg far]
        exact lead rfl ⟨rfl, rfl, rfl, rfl⟩ coordinated preface (by simp [present])

/-- The proposal of a trial ends it or lets it go on to propagate. -/
theorem onProposal {o : Orchestrator} (settings : o.settings = t.orchestrator.settings) (time : Timestamp)
    (decision : x.decision = t.decision) (concerns : t.Concerns x.outcome) (coordinated : t.scope ≠ .here)
    (before : ∀ s ∈ t.preface, t.Passes s) : Stands t [t.proposal] (o.onProposal time x t.proposed).2.2 := by
  cases proposed : t.proposed with
  | error f =>
    have fault : t.fault? .commit = some f := by simp [fault?, proposed]
    exact t.filterMap_commit ▸ fails concerns coordinated rfl before fault
  | ok r =>
    let y : Execution := { x with outcome := { x.outcome with proposal := some r.id } }
    have concerns' : t.Concerns y.outcome :=
      ⟨concerns.decision, concerns.action, concerns.requested, concerns.effective⟩
    unfold Orchestrator.onProposal
    dsimp only
    cases rejected : Orchestrator.rejection? r with
    | some f =>
      have fault : t.fault? .commit = some f := by simp [fault?, proposed, rejected]
      exact t.filterMap_commit ▸ fails concerns' coordinated rfl before fault
    | none =>
      rw [decision, settings]
      exact .propagating rfl concerns' coordinated before proposed (rejection?_eq_none.mp rejected)

/-- The propagation of a trial ends it. -/
theorem onReport {o : Orchestrator} (settings : o.settings = t.orchestrator.settings) (time : Timestamp)
    (concerns : t.Concerns x.outcome) (coordinated : t.scope ≠ .here) (before : ∀ s ∈ t.preface, t.Passes s)
    {r : ProposalResult} (proposed : t.proposed = .ok r) (committed : r.outcome.committed = true) :
    Stands t [t.proposal, t.propagation r] (o.onReport time x t.propagated).2.2 := by
  have passed := passes_snoc before (s := .commit) ⟨r, proposed, committed⟩
  cases propagated : t.propagated with
  | error f =>
    have fault : t.fault? .report = some f := by simp [fault?, propagated]
    have split : t.stages = (t.preface ++ [.commit]) ++ .report :: [.compliance] := by simp [stages]
    exact filterMap_report proposed ▸ fails concerns coordinated split passed fault
  | ok report =>
    let y : Execution := { x with outcome := { x.outcome with compliance := some report.compliance } }
    have concerns' : t.Concerns y.outcome :=
      ⟨concerns.decision, concerns.action, concerns.requested, concerns.effective⟩
    have split : t.stages = t.preface ++ [.commit] ++ [.report] ++ [.compliance] := by simp [stages]
    have reported := passes_snoc passed (s := .report) ⟨report, propagated⟩
    have required : Orchestrator.required o.settings x.outcome.effective = t.needed := by
      rw [settings, concerns.effective, t.required_eq]
    have made := filterMap_compliance proposed
    unfold Orchestrator.onReport
    simp only [required]
    by_cases short : report.compliance < t.needed
    · have fault : t.fault? .compliance = some (.complianceShortfall report.compliance t.needed) := by
        simp [fault?, propagated, short]
      rw [if_pos short]
      exact made ▸ fails concerns' coordinated split reported fault
    · have enough : t.Passes .compliance := by simpa [Passes, propagated] using short
      have all : ∀ s ∈ t.stages, t.Passes s := split ▸ passes_snoc reported enough
      rw [if_neg short, ← made, ← split, ← calls_of_passes coordinated all]
      exact .ended (concerns'.failing none) (failure_of_passes coordinated all).symm

/-- An answer takes a trial on to where it stands next. -/
theorem answered {calls : List Call} {call : Call} (h : Stands t calls (.waiting x call)) {o : Orchestrator}
    (same : o.setup = t.orchestrator.setup) (time : Timestamp) :
    Stands t (calls ++ [call]) (o.resume time x (t.answer call)).2.2 := by
  have settings : o.settings = t.orchestrator.settings := congrArg Prod.fst same
  cases h with
  | executing decision concerns here =>
    have calls : t.calls = [t.execution] := if_pos here
    rw [List.nil_append, ← calls]
    simp only [execution, answer, Orchestrator.resume]
    cases ended : t.executed with
    | ok _ => exact .ended (concerns.failing none) (by simp [failure, here, ended])
    | error cause => exact .ended (concerns.failing _) (by simp [failure, here, ended])
  | proposing decision concerns coordinated before =>
    exact onProposal settings time decision concerns coordinated before
  | propagating _ concerns coordinated before proposed committed =>
    exact onReport settings time concerns coordinated before proposed committed

/-- The calls made so far, with the one that is waited for, are the first of the trial's. -/
theorem calls_prefix {calls : List Call} {course : Course} (h : Stands t calls course) :
    calls ++ course.pending <+: t.calls := by
  cases h with
  | executing _ _ here =>
    have calls : t.calls = [t.execution] := if_pos here
    exact calls ▸ List.prefix_rfl
  | proposing _ _ coordinated before =>
    have made := calls_of_reaches coordinated rfl before
    rwa [t.filterMap_commit] at made
  | @propagating _ r _ _ coordinated before proposed committed =>
    have stages : t.stages = (t.preface ++ [.commit]) ++ .report :: [.compliance] := by simp [Trial.stages]
    have passed := passes_snoc before (s := .commit) ⟨r, proposed, committed⟩
    have made := calls_of_reaches coordinated stages passed
    rwa [filterMap_report proposed] at made
  | ended => simp [Course.pending]

end Stands

theorem execute_notMem (t : Trial) (coordinated : t.scope ≠ .here) (action : String) (params : Json) :
    .execute action params ∉ t.calls := by
  rw [calls, if_neg coordinated]
  intro called
  obtain ⟨s, -, made⟩ := List.mem_filterMap.mp called
  cases s with
  | parts | safety | leadership | compliance => cases made
  | commit => cases made
  | report =>
    cases proposed : t.proposed with
    | error f => simp [call?, proposed] at made
    | ok r => simp [call?, proposed, propagation] at made

end Trial

end FleetCoordination
