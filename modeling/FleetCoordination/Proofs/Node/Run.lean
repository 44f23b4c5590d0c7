import FleetCoordination.Node
import FleetCoordination.Proofs.Engine.Reassigning
/-!
# Runs of a node

A run is the steps that a node has taken. Each takes an input from outside or one that earlier
steps have left to be taken, in any order. Only reviews and what follows from them touch the turns
of the cycles; any other step makes one step of the engine at most, and hands its answers on.
-/
namespace FleetCoordination

def Caller.isCycle : Caller → Bool
  | .cycle _ => true
  | _ => false

namespace Node

/-! ## What a step leaves to be taken -/

def task? : Output → Option Input
  | .next i | .wake i => some i
  | _ => none

/-- The inputs that a step leaves to be taken. -/
def tasks (outputs : List Output) : List Input := outputs.filterMap task?

def Input.due? : Input → Option (Except Fault ProposalResult)
  | .raised r => some r
  | _ => none

/-- The results that the cycle under way has yet to take note of. -/
def dues (inputs : List Input) : List (Except Fault ProposalResult) := inputs.filterMap Input.due?

def Input.opens : Input → Bool
  | .openTurn => true
  | _ => false

/-- Whether an input may come from outside: a cycle is moved on by the node alone. -/
def Input.Free : Input → Prop
  | .engine i => ∀ caller ∈ i.submitter?, caller.isCycle = false
  | .openTurn | .raised _ => False
  | _ => True

def report? : Output → Option Reassignment.CycleReport
  | .finished _ (.report r) => some r
  | _ => none

/-- The reports of cycles among some outputs. -/
def reports (outputs : List Output) : List Reassignment.CycleReport := outputs.filterMap report?

section Lists
variable (o : Output) (xs ys : List Output)

@[simp] theorem tasks_nil : tasks [] = [] := rfl
@[simp] theorem tasks_cons : tasks (o :: xs) = (task? o).toList ++ tasks xs := by cases h : task? o <;> simp [tasks, h]
@[simp] theorem tasks_append : tasks (xs ++ ys) = tasks xs ++ tasks ys := by simp [tasks]

@[simp] theorem reports_nil : reports [] = [] := rfl
@[simp] theorem reports_cons : reports (o :: xs) = (report? o).toList ++ reports xs := by
  cases h : report? o <;> simp [reports, h]
@[simp] theorem reports_append : reports (xs ++ ys) = reports xs ++ reports ys := by simp [reports]

theorem mem_reports {r : Reassignment.CycleReport} : r ∈ reports xs ↔ ∃ job, .finished job (.report r) ∈ xs := by
  simp only [reports, List.mem_filterMap]
  constructor
  · rintro ⟨o, ho, known⟩
    cases o with
    | finished job done =>
      cases done <;> cases known
      exact ⟨job, ho⟩
    | _ => cases known
  · rintro ⟨job, ho⟩
    exact ⟨_, ho, rfl⟩

variable (i : Input) (is js : List Input)

@[simp] theorem dues_nil : dues [] = [] := rfl
@[simp] theorem dues_cons : dues (i :: is) = i.due?.toList ++ dues is := by cases h : i.due? <;> simp [dues, h]
@[simp] theorem dues_append : dues (is ++ js) = dues is ++ dues js := by simp [dues]

theorem mem_dues {r : Except Fault ProposalResult} : r ∈ dues is ↔ .raised r ∈ is := by
  simp only [dues, List.mem_filterMap]
  constructor
  · rintro ⟨i, hi, known⟩
    cases i <;> cases known
    exact hi
  · exact fun hi => ⟨_, hi, rfl⟩

end Lists

theorem Input.Free.due {i : Input} (h : i.Free) : i.due? = none := by
  cases i <;> first | rfl | exact h.elim

theorem Input.Free.opens {i : Input} (h : i.Free) : i.opens = false := by
  cases i <;> first | rfl | exact h.elim

/-! ## Runs -/

/-- A step of a node. -/
structure Move where
  before : Node
  site : Site
  input : Input

namespace Move
variable (m : Move)

def after : Node := (m.before.step m.site m.input).1
def outputs : List Output := (m.before.step m.site m.input).2

/-- The ids that a step newly marks executed. -/
def marked : List ProposalId := m.before.engine.ledger.executed.gained m.after.engine.ledger.executed

/-- Whether a step opens a cycle of a leader. -/
def Opens : Prop :=
  match m.input with
  | .openTurn => m.before.turns ≠ []
  | .review .. => m.site.leadership.isLeader = true ∧ m.before.turns = []
  | _ => False

/-- Whether no commit is applied in a step but that of a cycle's proposal. -/
def Quiet : Prop := m.marked ≠ [] → ∃ result, .next (.raised result) ∈ m.outputs

end Move

/-- Where the input of a step comes from, and what is left to be taken then. -/
inductive Taken (agenda : List Input) (i : Input) : List Input → Prop
  | outside (free : i.Free) : Taken agenda i agenda
  | inside {rest : List Input} (left : agenda.Perm (i :: rest)) : Taken agenda i rest

/-- The steps from a node to another, oldest first, with what they have left to be taken. Between
steps the evaluations under way may end. -/
inductive Run (origin : Node) : List Move → List Input → Node → Prop
  | start : Run origin [] [] origin
  | step {moves : List Move} {agenda rest : List Input} {n : Node} (past : Run origin moves agenda n) (s : Site)
      {i : Input} (taken : Taken agenda i rest) :
      Run origin (moves ++ [⟨n, s, i⟩]) (rest ++ tasks (n.step s i).2) (n.step s i).1
  | elapse {moves : List Move} {agenda : List Input} {n : Node} (past : Run origin moves agenda n)
      (evaluations : List Evaluation) : Run origin moves agenda { n with evaluations }

/-- The steps before a step of a run lead to the node that it meets. -/
theorem Run.until {origin n : Node} {moves before after : List Move} {agenda : List Input} {s : Move}
    (h : Run origin moves agenda n) (split : moves = before ++ s :: after) :
    ∃ agenda, Run origin before agenda s.before := by
  induction h generalizing after with
  | start => simp at split
  | step past site taken ih =>
    obtain ⟨rfl, rfl, -⟩ | ⟨init, -, split⟩ := split_of_snoc split
    · exact ⟨_, past⟩
    · exact ih split
  | elapse past evaluations ih => exact ih split

/-! ## Steps apart from the cycles -/

/-- Outputs that hand some answers on to the cycle under way, and open and report none. -/
structure Relays (answers : List (Except Fault ProposalResult)) (outputs : List Output) : Prop where
  answers : dues (tasks outputs) = answers
  free : ∀ i ∈ tasks outputs, i.Free ∨ ∃ r, i = .raised r
  silent : reports outputs = []

namespace Relays
variable {xs ys : List (Except Fault ProposalResult)} {outputs more : List Output}

theorem nil : Relays [] [] := ⟨rfl, by simp, rfl⟩

theorem append (h : Relays xs outputs) (h' : Relays ys more) : Relays (xs ++ ys) (outputs ++ more) := by
  refine ⟨by simp [h.answers, h'.answers], fun i hi => ?_, by simp [h.silent, h'.silent]⟩
  rw [tasks_append, List.mem_append] at hi
  exact hi.elim (h.free i) (h'.free i)

/-- An output that leaves nothing to be taken. -/
theorem idle {o : Output} (task : task? o = none) (silent : report? o = none) : Relays [] [o] := by
  have none_ : tasks [o] = [] := by simp [task]
  exact ⟨by rw [none_]; rfl, by simp [none_], by simp [silent]⟩

/-- An output that leaves an input to be taken which may as well come from outside. -/
theorem task {o : Output} {i : Input} (task : task? o = some i) (free : i.Free) (silent : report? o = none) :
    Relays [] [o] := by
  have one : tasks [o] = [i] := by simp [task]
  refine ⟨by simp [one, free.due], fun j hj => .inl ?_, by simp [silent]⟩
  rw [one, List.mem_singleton] at hj
  exact hj ▸ free

theorem next {i : Input} (free : i.Free) : Relays [] [.next i] := .task rfl free rfl

theorem map {α : Type} {f : α → Output} {xs : List α} (each : ∀ x ∈ xs, Relays [] [f x]) : Relays [] (xs.map f) := by
  induction xs with
  | nil => exact .nil
  | cons x xs ih =>
    obtain ⟨first, later⟩ := List.forall_mem_cons.mp each
    exact first.append (ih later)

end Relays

section Absorb
variable (s : Site) (n : Node)

theorem relays_execute (action : String) (params : Json) {ended : Except ExecutionFault Unit → Input}
    (free : ∀ r, (ended r).Free) : Relays [] (execute s action params ended) := by
  unfold execute
  split
  · exact (Relays.idle (o := .performed action params) rfl rfl).append (.next (free _))
  · exact .next (free _)

theorem relays_post (e : Envelope) {ended : Except TransportFault Unit → Input} (free : ∀ r, (ended r).Free) :
    Relays [] (post s e ended) := by
  unfold post
  split
  · exact .next (free _)
  · exact (Relays.idle (o := .send e .atLeastOnce) rfl rfl).append (.next (free _))

theorem relays_submitted (caller : Caller) (r : Except Fault ProposalResult) :
    Relays ((.submitted caller r : Engine.Output Caller).told? Caller.isCycle).toList [submitted caller r] := by
  cases caller with
  | client job => exact .idle rfl rfl
  | decision job => exact .next (i := .answer job (.proposed r)) trivial
  | cycle job => exact ⟨rfl, by simp [submitted, task?], rfl⟩

theorem relays_propagated (caller : Caller) (r : Except Fault PropagationReport) : Relays [] [propagated caller r] := by
  cases caller with
  | decision job => exact .next (i := .answer job (.propagated r)) trivial
  | client job | cycle job => exact .idle rfl rfl

theorem free_evaluated (seat : Seat Caller) (j : Judgement) : (Input.engine (.evaluated seat j)).Free := by
  simp [Input.Free, Engine.Input.submitter?]

theorem free_executed (ticket : Nat) (ended : Except ExecutionFault Unit) :
    (Input.engine (.executed ticket ended)).Free := by
  simp [Input.Free, Engine.Input.submitter?]

theorem evaluate_cases (seat : Seat Caller) (action : String) :
    ∃ evaluations, (n.evaluate s seat action).1 = { n with evaluations } ∧ Relays [] (n.evaluate s seat action).2 := by
  unfold evaluate
  dsimp only
  split
  · exact ⟨_, rfl, .next (free_evaluated seat _)⟩
  · exact ⟨_, rfl, .nil⟩

theorem free_posted (errand : Errand) (ended : Except TransportFault Unit) :
    (Input.engine (.posted errand ended)).Free := by
  simp [Input.Free, Engine.Input.submitter?]

/-- An output of the engine is passed on; the node's own part in that is the evaluations. -/
theorem absorb_cases (outputs : List Output) (o : Engine.Output Caller) :
    ∃ evaluations more, absorb s (n, outputs) o = ({ n with evaluations }, outputs ++ more) ∧
      Relays (o.told? Caller.isCycle).toList more := by
  cases o with
  | evaluate seat action =>
    obtain ⟨evaluations, eq, relays⟩ := evaluate_cases s n seat action
    exact ⟨evaluations, _, by rw [← eq]; rfl, relays⟩
  | execute ticket action params => exact ⟨_, _, rfl, relays_execute s action params (free_executed ticket)⟩
  | submitted caller r => exact ⟨_, _, rfl, relays_submitted caller r⟩
  | propagated caller r => exact ⟨_, _, rfl, relays_propagated caller r⟩
  | send e qos => exact ⟨_, [.send e qos], rfl, .idle rfl rfl⟩
  | post errand e => exact ⟨_, _, rfl, relays_post s e (free_posted errand)⟩
  | announce e => exact ⟨_, [.announce e], rfl, .idle rfl rfl⟩
  | applied caller r => exact ⟨_, [.finished (jobOf caller) (.applied r)], rfl, .idle rfl rfl⟩
  | voted caller => exact ⟨_, [.finished (jobOf caller) .voted], rfl, .idle rfl rfl⟩

theorem foldl_absorb (os : List (Engine.Output Caller)) (outputs : List Output) :
    ∃ evaluations more, os.foldl (absorb s) (n, outputs) = ({ n with evaluations }, outputs ++ more) ∧
      Relays (Engine.answersTo Caller.isCycle os) more := by
  induction os generalizing n outputs with
  | nil => exact ⟨n.evaluations, [], by simp, .nil⟩
  | cons o os ih =>
    obtain ⟨evaluations, first, eq, relays⟩ := absorb_cases s n outputs o
    obtain ⟨evaluations', more, eq', relays'⟩ := ih { n with evaluations } (outputs ++ first)
    refine ⟨evaluations', first ++ more, ?_, ?_⟩
    · rw [List.foldl_cons, eq, eq', List.append_assoc]
    · rw [Engine.answersTo_cons]
      exact relays.append relays'

theorem free_moreVotes {e : Engine Caller} {id : ProposalId} : ∀ i ∈ moreVotes e id, i.Free := by
  unfold moreVotes
  split
  · split <;> simp [Input.Free, Engine.Input.submitter?]
  · simp

theorem free_moreAcks {e : Engine Caller} {id : ProposalId} : ∀ i ∈ moreAcks e id, i.Free := by
  unfold moreAcks
  split
  · split <;> simp [Input.Free, Engine.Input.submitter?]
  · simp

theorem free_goesOn (before after : Engine Caller) (i : Engine.Input Caller) : ∀ j ∈ goesOn before after i, j.Free := by
  unfold goesOn
  split
  · exact free_moreVotes
  · exact free_moreVotes
  · exact free_moreAcks
  · exact free_moreAcks
  · split
    · exact free_moreAcks
    · simp
  · simp

theorem free_wakes (after : Engine Caller) (i : Engine.Input Caller) : ∀ j ∈ wakes after i, j.Free := by
  unfold wakes
  split
  · exact free_moreVotes
  · exact free_moreAcks
  · simp

/-- A step of the engine hands the answers to the cycle's proposals on. -/
theorem stepEngine_cases (i : Engine.Input Caller) :
    ∃ evaluations, (n.stepEngine s i).1 = { n with engine := (n.engine.step s.surroundings i).1, evaluations } ∧
      Relays (Engine.answersTo Caller.isCycle (n.engine.step s.surroundings i).2) (n.stepEngine s i).2 := by
  obtain ⟨evaluations, more, eq, relays⟩ :=
    foldl_absorb s { n with engine := (n.engine.step s.surroundings i).1 } (n.engine.step s.surroundings i).2 []
  have onward : Relays [] ((goesOn n.engine (n.engine.step s.surroundings i).1 i).map .next) :=
    .map fun j hj => .next (free_goesOn _ _ i j hj)
  have woken : Relays [] ((wakes (n.engine.step s.surroundings i).1 i).map .wake) :=
    .map fun j hj => .task rfl (free_wakes _ i j hj) rfl
  have all := (relays.append onward).append woken
  rw [List.append_nil, List.append_nil] at all
  have out : n.stepEngine s i = ({ n with engine := (n.engine.step s.surroundings i).1, evaluations },
      more ++ (goesOn n.engine (n.engine.step s.surroundings i).1 i).map .next ++
        (wakes (n.engine.step s.surroundings i).1 i).map .wake) := by
    simp only [stepEngine, eq, List.nil_append]
  rw [out]
  exact ⟨evaluations, rfl, all⟩

end Absorb

/-- A step that leaves the turns alone: it makes one step of the engine at most, at which no cycle
submits. -/
inductive Aside (n : Node) (out : Step) : Prop
  | still (turns : out.1.turns = n.turns) (engine : out.1.engine = n.engine) (relays : Relays [] out.2)
  | moved (turns : out.1.turns = n.turns) (c : Surroundings) (i : Engine.Input Caller)
      (free : ∀ caller ∈ i.submitter?, caller.isCycle = false) (engine : out.1.engine = (n.engine.step c i).1)
      (relays : Relays (Engine.answersTo Caller.isCycle (n.engine.step c i).2) out.2)

section Aside
variable (s : Site) {n n' : Node}

theorem aside_stepEngine (turns : n'.turns = n.turns) (engine : n'.engine = n.engine) {i : Engine.Input Caller}
    (free : ∀ caller ∈ i.submitter?, caller.isCycle = false) {outputs : List Output} (first : Relays [] outputs) :
    Aside n ((n'.stepEngine s i).1, outputs ++ (n'.stepEngine s i).2) := by
  obtain ⟨evaluations, eq, relays⟩ := n'.stepEngine_cases s i
  have onward := first.append relays
  rw [List.nil_append, engine] at onward
  exact .moved (by rw [eq, turns]) s.surroundings i free (by rw [eq, engine]) onward

theorem aside_follow (turns : n'.turns = n.turns) (engine : n'.engine = n.engine) (job : Nat)
    (step : Orchestrator.Step) : Aside n (n'.follow s job step) := by
  obtain ⟨orchestrator, events, course⟩ := step
  have announced : Relays [] (events.map .announce) := .map fun event _ => .idle rfl rfl
  unfold follow
  cases course with
  | ended outcome => exact .still turns engine (announced.append (.idle rfl rfl))
  | waiting x call =>
    cases call with
    | execute action params =>
      exact .still turns engine (announced.append (relays_execute s action params fun _ => trivial))
    | propose action params timeout =>
      refine aside_stepEngine s (n := n) (i := .submit (.decision job) _) ?_ ?_ (by rintro _ ⟨⟩; rfl) announced
      exacts [turns, engine]
    | propagate id action params timeout =>
      refine aside_stepEngine s (n := n) (i := .propagate ..) ?_ ?_ nofun announced
      exacts [turns, engine]

theorem aside_resolve (n : Node) (job : Nat) (here global : Policy) (context : SafetyContext) (decision : Uuid)
    (timeout : Nat) : Aside n (n.resolve s job here global context decision timeout) := by
  unfold resolve
  dsimp only
  split
  · exact .still rfl rfl (.idle rfl rfl)
  · exact aside_follow s rfl rfl job _

/-- Inputs from outside leave the turns alone, reviews apart. -/
theorem aside_step (n : Node) {i : Input} (free : i.Free) (plain : ∀ job now, i ≠ .review job now) :
    Aside n (n.step s i) := by
  cases i with
  | engine i => exact aside_stepEngine s (n := n) rfl rfl free .nil
  | propose job action params timeout =>
    refine aside_stepEngine s (n := n) (i := .submit (.client job) _) ?_ ?_ (by rintro _ ⟨⟩; rfl) .nil <;> rfl
  | carryOut job d scope timeout => exact aside_follow s rfl rfl job _
  | resolve job here global context decision timeout => exact aside_resolve s n job here global context decision timeout
  | review job now => exact (plain job now rfl).elim
  | answer job a =>
    simp only [step, answer]
    split
    · exact aside_follow s rfl rfl job _
    · exact .still rfl rfl .nil
  | openTurn => exact free.elim
  | raised r => exact free.elim

end Aside

end Node

end FleetCoordination
