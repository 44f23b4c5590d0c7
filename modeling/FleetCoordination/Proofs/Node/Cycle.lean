import FleetCoordination.Proofs.Node.Run
import FleetCoordination.Proofs.Reassignment.Primary
/-!
# Cycles of a node

A node carries its cycles out one after another, and puts one plan to the vote at a time. Each
committed attempt has set its roles by the time the cycle takes note of it, so the roles at the
end of a cycle are those that its committed attempts have set.
-/
namespace FleetCoordination.Node
open Reassignment

/-- The plan that the first turn of a node has put to the vote. -/
structure Underway (n : Node) (c : Reassignment.Cycle) (p : Plan) : Prop where
  first : ∃ t later, n.turns = t :: later ∧ t.cycle = some c ∧ ∀ t ∈ later, t.cycle = none
  pending : ∃ rest, c.pending = p :: rest

/-- Where the cycles of a node stand, by the results and the number of openings that are left to be
taken. `base` is the role table that the cycle under way was opened on, if it is known. -/
inductive Phase (base : Option RoleTable) (n : Node) : List (Except Fault ProposalResult) → Nat → Prop
  | resting {openings : Nat} (idle : n.engine.awaited Caller.isCycle = []) (unopened : ∀ t ∈ n.turns, t.cycle = none)
      (few : openings ≤ min 1 n.turns.length) : Phase base n [] openings
  | polling {c : Reassignment.Cycle} {p : Plan} {r : Round Caller} (underway : n.Underway c p)
      (one : n.engine.awaited Caller.isCycle = [r]) (about : r.Reassigns p.content)
      (known : ∀ roles ∈ base, n.roles = enacted roles c.report.attempts ∧
        n.engine.ledger.executed.contains r.id = false) : Phase base n [] 0
  | answered {c : Reassignment.Cycle} {p : Plan} {result : Except Fault ProposalResult} (underway : n.Underway c p)
      (idle : n.engine.awaited Caller.isCycle = [])
      (known : ∀ roles ∈ base, n.roles = enacted roles (c.report.attempts ++ [⟨p.trigger, p.changes, result⟩])) :
      Phase base n [result] 0

/-- Whether an input may be left to be taken: it may come from outside, or moves a cycle on. -/
def Input.Due (i : Input) : Prop := i.Free ∨ i = .openTurn ∨ ∃ r, i = .raised r

/-- A node in order, with what it has left to be taken. -/
structure Wired (base : Option RoleTable) (agenda : List Input) (n : Node) : Prop where
  fit : n.engine.Fit Caller.isCycle
  inputs : ∀ i ∈ agenda, i.Due
  phase : Phase base n (dues agenda) (agenda.countP Input.opens)

section Wired
variable {base : Option RoleTable} {agenda rest : List Input} {n n' : Node} {i : Input}

theorem Phase.perm {results results' : List (Except Fault ProposalResult)} {openings : Nat}
    (h : Phase base n results openings) (perm : results.Perm results') : Phase base n results' openings := by
  cases h with
  | resting idle unopened few => exact perm.nil_eq ▸ .resting idle unopened few
  | polling underway one about known => exact perm.nil_eq ▸ .polling underway one about known
  | answered underway idle known => exact List.singleton_perm.mp perm ▸ .answered underway idle known

theorem Wired.perm (h : Wired base agenda n) (perm : agenda.Perm rest) : Wired base rest n :=
  ⟨h.fit, fun i hi => h.inputs i (perm.mem_iff.mpr hi),
    perm.countP_eq Input.opens ▸ h.phase.perm (perm.filterMap Input.due?)⟩

/-- Inputs that may come from outside count for nothing. -/
theorem wired_cons (free : i.Free) : Wired base (i :: rest) n ↔ Wired base rest n := by
  have dues_ : dues (i :: rest) = dues rest := by simp [free.due]
  have openings : (i :: rest).countP Input.opens = rest.countP Input.opens := by simp [free.opens]
  constructor
  · exact fun h => ⟨h.fit, fun j hj => h.inputs j (List.mem_cons_of_mem _ hj), dues_ ▸ openings ▸ h.phase⟩
  · refine fun h => ⟨h.fit, fun j hj => ?_, dues_.symm ▸ openings.symm ▸ h.phase⟩
    rcases List.mem_cons.mp hj with rfl | later
    · exact .inl free
    · exact h.inputs j later

theorem Wired.take (h : Wired base agenda n) (taken : Taken agenda i rest) : Wired base (i :: rest) n := by
  cases taken with
  | outside free => exact (wired_cons free).mpr h
  | inside left => exact h.perm left

/-- What an agenda becomes by outputs that hand some answers on. -/
theorem Relays.wired {answers : List (Except Fault ProposalResult)} {outputs : List Output}
    (relays : Relays answers outputs) (fit : n.engine.Fit Caller.isCycle) (inputs : ∀ i ∈ agenda, i.Due)
    (phase : Phase base n (dues agenda ++ answers) (agenda.countP Input.opens)) :
    Wired base (agenda ++ tasks outputs) n := by
  refine ⟨fit, fun i hi => ?_, ?_⟩
  · rcases List.mem_append.mp hi with old | new
    · exact inputs i old
    · exact (relays.free i new).imp_right .inr
  · have none_ : (tasks outputs).countP Input.opens = 0 := by
      refine List.countP_eq_zero.mpr fun i hi => ?_
      obtain free | ⟨r, rfl⟩ := relays.free i hi
      · simp [free.opens]
      · simp [Input.opens]
    rw [dues_append, relays.answers, List.countP_append, none_, Nat.add_zero]
    exact phase

theorem Phase.forget {results : List (Except Fault ProposalResult)} {openings : Nat}
    (h : Phase base n results openings) : Phase none n results openings := by
  cases h with
  | resting idle unopened few => exact .resting idle unopened few
  | polling underway one about => exact .polling underway one about nofun
  | answered underway idle => exact .answered underway idle nofun

theorem Wired.forget (h : Wired base agenda n) : Wired none agenda n := ⟨h.fit, h.inputs, h.phase.forget⟩

theorem Underway.congr {c : Reassignment.Cycle} {p : Plan} (h : n.Underway c p) (turns : n'.turns = n.turns) :
    n'.Underway c p := ⟨turns ▸ h.first, h.pending⟩

theorem Phase.congr {results : List (Except Fault ProposalResult)} {openings : Nat}
    (h : Phase base n results openings) (turns : n'.turns = n.turns) (engine : n'.engine = n.engine) :
    Phase base n' results openings := by
  cases h with
  | resting idle unopened few => exact .resting (engine ▸ idle) (turns ▸ unopened) (turns ▸ few)
  | polling underway one about known =>
    refine .polling (underway.congr turns) (engine ▸ one) about ?_
    rwa [roles, engine]
  | answered underway idle known =>
    refine .answered (underway.congr turns) (engine ▸ idle) ?_
    rwa [roles, engine]

theorem Wired.elapse (h : Wired base agenda n) (evaluations : List Evaluation) :
    Wired base agenda { n with evaluations } := ⟨h.fit, h.inputs, h.phase.congr rfl rfl⟩

/-! ## Steps apart from the cycles -/

/-- Roles that a step leaves alone, as it marks no id executed. -/
theorem kept_of_unmarked (fit : n.engine.Fit Caller.isCycle) {c : Surroundings} {i : Engine.Input Caller}
    (engine : n'.engine = (n.engine.step c i).1)
    (unmarked : n.engine.ledger.executed.gained n'.engine.ledger.executed = []) :
    n'.roles = n.roles ∧ n'.engine.ledger.executed = n.engine.ledger.executed := by
  rw [engine] at unmarked
  rw [roles, engine]
  exact Engine.Turn.roles_of_unmarked (t := ⟨n.engine, c, i⟩) fit.capacity unmarked

/-- A step of the engine leaves the round of a plan under way, or ends it. -/
theorem Phase.moved {results : List (Except Fault ProposalResult)} {openings : Nat}
    (h : Phase base n results openings) (fit : n.engine.Fit Caller.isCycle) {c : Surroundings} {i : Engine.Input Caller}
    (free : ∀ caller ∈ i.submitter?, caller.isCycle = false) (turns : n'.turns = n.turns)
    (engine : n'.engine = (n.engine.step c i).1)
    (quiet : base.isSome = true → Engine.answersTo Caller.isCycle (n.engine.step c i).2 = [] →
      n.engine.ledger.executed.gained n'.engine.ledger.executed = []) :
    n'.engine.Fit Caller.isCycle ∧
      Phase base n' (results ++ Engine.answersTo Caller.isCycle (n.engine.step c i).2) openings := by
  have kept {table : RoleTable} (known : table ∈ base)
      (silent : Engine.answersTo Caller.isCycle (n.engine.step c i).2 = []) :=
    kept_of_unmarked fit engine (quiet (Option.isSome_of_mem known) silent)
  cases h with
  | resting idle unopened few =>
    obtain ⟨fit, idle, silent⟩ := fit.quiet (i := i) idle c free
    rw [silent, List.append_nil]
    exact ⟨engine ▸ fit, .resting (engine ▸ idle) (turns ▸ unopened) (turns ▸ few)⟩
  | answered underway idle known =>
    obtain ⟨fit, idle, silent⟩ := fit.quiet (i := i) idle c free
    rw [silent, List.append_nil]
    exact ⟨engine ▸ fit, .answered (underway.congr turns) (engine ▸ idle) fun table ht =>
      (kept ht silent).1.trans (known table ht)⟩
  | @polling _ p _ underway one about known =>
    obtain ⟨fit, ⟨r', charter, one, silent⟩ | ⟨idle, result, told, ended⟩⟩ := fit.turn (i := i) one about c free
    · have proposal : r'.proposal = _ := congrArg (·.2.1) charter
      have about : r'.Reassigns p.content := ⟨proposal ▸ about.action, proposal ▸ about.params⟩
      rw [silent]
      refine ⟨engine ▸ fit, .polling (underway.congr turns) (engine ▸ one) about fun table ht => ?_⟩
      obtain ⟨roles, executed⟩ := kept ht silent
      rw [roles, executed, Round.id, proposal]
      exact known table ht
    · rw [told]
      refine ⟨engine ▸ fit, .answered (underway.congr turns) (engine ▸ idle) fun table ht => ?_⟩
      obtain ⟨held, new⟩ := known table ht
      rw [roles, engine, enacted_snoc, ← held]
      obtain ⟨r', o, rfl, set⟩ | ⟨⟨f, rfl⟩, kept⟩ := ended new
      · exact set
      · exact kept

/-- A step apart from the cycles keeps a node in order. -/
theorem Wired.aside (h : Wired base agenda n) {out : Step} (aside : n.Aside out)
    (quiet : base.isSome = true → dues (tasks out.2) = [] →
      n.engine.ledger.executed.gained out.1.engine.ledger.executed = []) :
    Wired base (agenda ++ tasks out.2) out.1 ∧ reports out.2 = [] := by
  cases aside with
  | still turns engine relays =>
    refine ⟨relays.wired (engine ▸ h.fit) h.inputs ?_, relays.silent⟩
    rw [List.append_nil]
    exact h.phase.congr turns engine
  | moved turns c i free engine relays =>
    obtain ⟨fit, phase⟩ := h.phase.moved h.fit free turns engine fun known silent =>
      quiet known (relays.answers.trans silent)
    exact ⟨relays.wired fit h.inputs phase, relays.silent⟩

/-! ## Steps of the cycles -/

/-- A node with no cycle under way, whose agenda has nothing of a cycle in it. -/
structure Clear (agenda : List Input) (n : Node) : Prop where
  fit : n.engine.Fit Caller.isCycle
  idle : n.engine.awaited Caller.isCycle = []
  inputs : ∀ i ∈ agenda, i.Due
  settled : dues agenda = []
  closed : agenda.countP Input.opens = 0

section Raising
variable {c : Reassignment.Cycle} {later : List Turn}

/-- A cycle without more plans is over, and the next turn is to be opened. -/
theorem Clear.over (h : n.Clear agenda) (base : Option RoleTable) (s : Site) (t : Turn) (pending : c.pending = [])
    (unopened : ∀ t ∈ later, t.cycle = none) :
    (n.raiseNext s t c later).1.roles = n.roles ∧ reports (n.raiseNext s t c later).2 = [c.report] ∧
      Wired base (agenda ++ tasks (n.raiseNext s t c later).2) (n.raiseNext s t c later).1 := by
  have out : n.raiseNext s t c later = ({ n with turns := later },
      .finished t.job (.report c.report) :: if later.isEmpty then [] else [.wake .openTurn]) := by
    simp only [raiseNext, pending]
  have rest (openings : Nat) (few : openings ≤ min 1 later.length) : Phase base { n with turns := later } [] openings :=
    .resting h.idle unopened few
  rw [out]
  refine ⟨rfl, ?_, h.fit, ?_, ?_⟩ <;> cases later
  · simp [report?]
  · simp [report?]
  · simpa [task?] using h.inputs
  · simpa [task?, Input.Due, or_imp, forall_and] using h.inputs
  · simpa [task?, h.settled, h.closed] using rest 0 (by simp)
  · simpa [task?, h.settled, h.closed, Input.due?, Input.opens] using rest 1 (by simp)

/-- A plan is put to the vote, which changes no role. -/
theorem Clear.raise (h : n.Clear agenda) (s : Site) (t : Turn) {p : Plan} {rest : List Plan}
    (pending : c.pending = p :: rest) (unopened : ∀ t ∈ later, t.cycle = none)
    (known : ∀ roles ∈ base, n.roles = enacted roles c.report.attempts) :
    reports (n.raiseNext s t c later).2 = [] ∧
      Wired base (agenda ++ tasks (n.raiseNext s t c later).2) (n.raiseNext s t c later).1 := by
  let m : Node := { n with
    turns := { t with cycle := some c } :: later, reassigner := n.reassigner.raise p c.now, lastId := n.lastId + 1 }
  let proposal : Proposal := {
    id := Uuid.ofNat m.lastId, action := RoleReassignment.action, params := p.content.toJson
    timeout := m.reassigner.settings.proposalTimeoutMs }
  have out : n.raiseNext s t c later = m.stepEngine s (.submit (.cycle t.job) proposal) := by
    simp only [raiseNext, pending]
    rfl
  obtain ⟨evaluations, eq, relays⟩ := m.stepEngine_cases s (.submit (.cycle t.job) proposal)
  rw [out]
  refine ⟨relays.silent, ?_⟩
  have underway : (m.stepEngine s (.submit (.cycle t.job) proposal)).1.Underway c p :=
    ⟨⟨_, later, by rw [eq], rfl, unopened⟩, rest, pending⟩
  have engine : (m.stepEngine s (.submit (.cycle t.job) proposal)).1.engine =
      (n.engine.submit s.surroundings (.cycle t.job) proposal).1 := by rw [eq]; rfl
  have ledger := n.engine.ledger_submit s.surroundings (.cycle t.job) proposal
  obtain ⟨fit, ⟨idle, f, told⟩ | ⟨new, silent, r, asked, one⟩⟩ :=
    h.fit.submit h.idle s.surroundings (show Caller.isCycle (.cycle t.job) = true from rfl) proposal
  · refine (told ▸ relays).wired (engine ▸ fit) h.inputs ?_
    rw [h.settled, h.closed]
    refine .answered underway (engine ▸ idle) fun table ht => ?_
    rw [roles, engine, ledger, enacted_snoc]
    exact known table ht
  · refine (silent ▸ relays).wired (engine ▸ fit) h.inputs ?_
    rw [h.settled, h.closed]
    refine .polling underway (engine ▸ one) ⟨by rw [asked], ?_⟩ fun table ht => ?_
    · rw [asked]
      exact RoleReassignment.ofJson?_toJson p.content
    · rw [roles, engine, ledger, Round.id, asked]
      exact ⟨known table ht, new⟩

/-- The next plan of a cycle is put to the vote, or the cycle is over. -/
theorem Clear.raiseNext (h : n.Clear agenda) (s : Site) (t : Turn) (unopened : ∀ t ∈ later, t.cycle = none)
    (known : ∀ roles ∈ base, n.roles = enacted roles c.report.attempts) :
    Wired base (agenda ++ tasks (n.raiseNext s t c later).2) (n.raiseNext s t c later).1 ∧
      ∀ report ∈ reports (n.raiseNext s t c later).2, ∀ roles ∈ base,
        (n.raiseNext s t c later).1.roles = enacted roles report.attempts := by
  cases pending : c.pending with
  | nil =>
    obtain ⟨roles, told, wired⟩ := h.over base s t pending unopened
    rw [told]
    simpa [roles, wired] using known
  | cons p rest =>
    obtain ⟨silent, wired⟩ := h.raise s t pending unopened known
    simp [silent, wired]

end Raising

theorem Clear.resting (h : n.Clear agenda) (unopened : ∀ t ∈ n.turns, t.cycle = none) : Wired base agenda n := by
  refine ⟨h.fit, h.inputs, ?_⟩
  rw [h.settled, h.closed]
  exact .resting h.idle unopened (Nat.zero_le _)

theorem openTurn_cons (s : Site) {t : Turn} {later : List Turn} (turns : n.turns = t :: later) :
    n.openTurn s = n.beginTurn s t later
      (n.reassigner.examine s.world n.engine.ledger.roles (some n.engine.tracker) t.now) := by
  simp only [Node.openTurn, turns]

/-- The first turn is opened on the roles of the node. -/
theorem Clear.openTurn (h : n.Clear agenda) (s : Site) (unopened : ∀ t ∈ n.turns, t.cycle = none) :
    Wired (some n.roles) (agenda ++ tasks (n.openTurn s).2) (n.openTurn s).1 ∧
      ∀ report ∈ reports (n.openTurn s).2, (n.openTurn s).1.roles = enacted n.roles report.attempts := by
  cases turns : n.turns with
  | nil =>
    have out : n.openTurn s = (n, []) := by simp only [Node.openTurn, turns]
    rw [out]
    simpa using h.resting unopened
  | cons t later =>
    rw [turns, List.forall_mem_cons] at unopened
    have out := openTurn_cons s turns
    cases examined : n.reassigner.examine s.world n.engine.ledger.roles (some n.engine.tracker) t.now with
    | none =>
      have clear : Clear agenda { n with halted := true, turns := later } :=
        ⟨h.fit, h.idle, h.inputs, h.settled, h.closed⟩
      rw [out, examined, beginTurn]
      simpa using clear.resting unopened.2
    | some x =>
      obtain ⟨reassigner, c⟩ := x
      obtain ⟨-, -, -, -, -, fresh, -⟩ := Reassigner.examine_eq examined
      have clear : Clear agenda { n with reassigner } := ⟨h.fit, h.idle, h.inputs, h.settled, h.closed⟩
      have known : ∀ roles ∈ some n.roles, ({ n with reassigner } : Node).roles = enacted roles c.report.attempts := by
        rintro _ ⟨⟩
        rw [fresh]
        rfl
      obtain ⟨wired, reported⟩ := clear.raiseNext s t unopened.2 known
      rw [out, examined, beginTurn]
      exact ⟨wired, fun report hr => reported report hr n.roles rfl⟩

/-- The first turn takes note of the result of its plan. -/
theorem Wired.raised {result : Except Fault ProposalResult} (h : Wired base (.raised result :: rest) n) (s : Site) :
    Wired base (rest ++ tasks (n.raised s result).2) (n.raised s result).1 ∧
      ∀ report ∈ reports (n.raised s result).2, ∀ roles ∈ base,
        (n.raised s result).1.roles = enacted roles report.attempts := by
  obtain ⟨fit, inputs, phase⟩ := h
  generalize results : dues (.raised result :: rest) = due at phase
  generalize openings : (Input.raised result :: rest).countP Input.opens = opens at phase
  cases phase with
  | resting | polling => simp [Input.due?] at results
  | @answered c p result' underway idle known =>
    obtain ⟨rfl, settled⟩ : result = result' ∧ dues rest = [] := by simpa [Input.due?] using results
    have closed : rest.countP Input.opens = 0 := by simpa [Input.opens] using openings
    obtain ⟨t, later, turns, cycle, unopened⟩ := underway.first
    obtain ⟨plans, pending⟩ := underway.pending
    let noted := n.reassigner.settle (some n.engine.tracker) c p result
    let m : Node := { n with
      reassigner := noted.1, engine := { n.engine with tracker := noted.2.1.getD n.engine.tracker } }
    have out : n.raised s result = m.raiseNext s t { noted.2.2 with pending := plans } later := by
      simp only [Node.raised, turns, cycle, pending]
      rfl
    have clear : Clear rest m := {
      fit := ⟨fit.ids, fit.issued, fit.tickets, fit.capacity, fit.idle⟩
      idle, settled, closed, inputs := fun i hi => inputs i (List.mem_cons_of_mem _ hi) }
    rw [out]
    exact clear.raiseNext s t unopened known

/-- A turn is opened that was left to be opened. -/
theorem Wired.openTurn (h : Wired base (.openTurn :: rest) n) (s : Site) :
    n.turns ≠ [] ∧ Wired (some n.roles) (rest ++ tasks (n.openTurn s).2) (n.openTurn s).1 ∧
      ∀ report ∈ reports (n.openTurn s).2, (n.openTurn s).1.roles = enacted n.roles report.attempts := by
  obtain ⟨fit, inputs, phase⟩ := h
  generalize results : dues (.openTurn :: rest) = due at phase
  generalize openings : (Input.openTurn :: rest).countP Input.opens = opens at phase
  cases phase with
  | polling | answered => simp [Input.opens] at openings
  | resting idle unopened few =>
    have one : (Input.openTurn :: rest).countP Input.opens = rest.countP Input.opens + 1 := List.countP_cons_of_pos rfl
    have clear : Clear rest n := {
      fit, idle, inputs := fun i hi => inputs i (List.mem_cons_of_mem _ hi)
      settled := by simpa [Input.due?] using results
      closed := by omega }
    exact ⟨List.length_pos_iff.mp (by omega), clear.openTurn s unopened⟩

/-- A review by an agent that does not lead changes nothing and proposes nothing. -/
theorem review_of_follower (n : Node) {s : Site} (follows : s.leadership.isLeader = false) (job : Nat)
    (now : Timestamp) : n.review s job now = (n, [.finished job (.report {})]) := by
  simp [review, follows]

theorem unopened_snoc {turns : List Turn} (unopened : ∀ t ∈ turns, t.cycle = none) (job : Nat) (now : Timestamp) :
    ∀ t ∈ turns ++ [⟨job, now, none⟩], t.cycle = none :=
  List.forall_mem_append.mpr ⟨unopened, List.forall_mem_singleton.mpr rfl⟩

/-- A review finds another cycle under way and waits for it. -/
theorem Wired.wait (h : Wired base rest n) {s : Site} (leads : s.leadership.isLeader = true) (busy : n.turns ≠ [])
    (job : Nat) (now : Timestamp) :
    (n.review s job now).2 = [] ∧ Wired base rest (n.review s job now).1 := by
  let m : Node := { n with reassigner := n.reassigner.enter, turns := n.turns ++ [⟨job, now, none⟩] }
  have out : n.review s job now = (m, []) := by simp [review, leads, busy, m]
  have underway {c : Reassignment.Cycle} {p : Plan} (h : n.Underway c p) : m.Underway c p := by
    obtain ⟨⟨t, later, turns, cycle, unopened⟩, pending⟩ := h
    exact ⟨⟨t, later ++ [⟨job, now, none⟩], by simp [m, turns], cycle, unopened_snoc unopened job now⟩, pending⟩
  rw [out]
  refine ⟨rfl, h.fit, h.inputs, ?_⟩
  obtain ⟨-, -, phase⟩ := h
  generalize dues rest = results at phase ⊢
  generalize rest.countP Input.opens = openings at phase ⊢
  cases phase with
  | resting idle unopened few =>
    exact .resting idle (unopened_snoc unopened job now) (few.trans (by simp [m]))
  | polling under one about known => exact .polling (underway under) one about known
  | answered under idle known => exact .answered (underway under) idle known

/-- A review opens its cycle. -/
theorem Wired.enter (h : Wired base rest n) {s : Site} (leads : s.leadership.isLeader = true) (first : n.turns = [])
    (job : Nat) (now : Timestamp) :
    Wired (some n.roles) (rest ++ tasks (n.review s job now).2) (n.review s job now).1 ∧
      ∀ report ∈ reports (n.review s job now).2, (n.review s job now).1.roles = enacted n.roles report.attempts := by
  obtain ⟨fit, inputs, phase⟩ := h
  generalize results : dues rest = due at phase
  generalize openings : rest.countP Input.opens = opens at phase
  cases phase with
  | polling underway | answered underway =>
    obtain ⟨t, later, turns, -⟩ := underway.first
    simp [first] at turns
  | resting idle unopened few =>
    let m : Node := { n with reassigner := n.reassigner.enter, turns := [⟨job, now, none⟩] }
    have out : n.review s job now = m.openTurn s := by simp [review, leads, first, m]
    have clear : Clear rest m :=
      { fit, idle, inputs, settled := results, closed := by simpa [first, openings] using few }
    rw [out]
    exact clear.openTurn s (by simp [m])

/-! ## All steps -/

/-- A step that opens a cycle opens it on the roles of the node. -/
theorem Wired.opens (h : Wired base (i :: rest) n) (s : Site) (opens : (Move.mk n s i).Opens) :
    Wired (some n.roles) (rest ++ tasks (n.step s i).2) (n.step s i).1 ∧
      ∀ report ∈ reports (n.step s i).2, (n.step s i).1.roles = enacted n.roles report.attempts := by
  cases i with
  | openTurn => exact (h.openTurn s).2
  | review job now =>
    have free : (Input.review job now).Free := trivial
    exact ((wired_cons free).mp h).enter opens.1 opens.2 job now
  | _ => exact opens.elim

/-- A step that opens no cycle, and applies no commit but that of a cycle's proposal, keeps account of
the roles. -/
theorem Wired.moves (h : Wired base (i :: rest) n) (s : Site) (opens : ¬(Move.mk n s i).Opens)
    (quiet : base.isSome = true → (Move.mk n s i).Quiet) :
    Wired base (rest ++ tasks (n.step s i).2) (n.step s i).1 ∧
      ∀ report ∈ reports (n.step s i).2, report.ran = true → ∀ roles ∈ base,
        (n.step s i).1.roles = enacted roles report.attempts := by
  obtain free | rfl | ⟨result, rfl⟩ := h.inputs i List.mem_cons_self
  · have left := (wired_cons free).mp h
    by_cases reviews : ∃ job now, i = .review job now
    · obtain ⟨job, now, rfl⟩ := reviews
      cases leads : s.leadership.isLeader with
      | false =>
        have out : n.step s (.review job now) = (n, [.finished job (.report {})]) := n.review_of_follower leads job now
        rw [out]
        simpa [task?, report?] using left
      | true =>
        have busy : n.turns ≠ [] := fun first => opens ⟨leads, first⟩
        obtain ⟨silent, wired⟩ := left.wait leads busy job now
        change Wired base (rest ++ tasks (n.review s job now).2) (n.review s job now).1 ∧
          ∀ report ∈ reports (n.review s job now).2, _
        rw [silent]
        simpa using wired
    · have aside := aside_step s n free fun job now same => reviews ⟨job, now, same⟩
      obtain ⟨wired, silent⟩ := left.aside aside fun known none_ => by
        by_contra marked
        obtain ⟨result, told⟩ := quiet known marked
        have due : result ∈ dues (tasks (n.step s i).2) :=
          List.mem_filterMap.mpr ⟨_, List.mem_filterMap.mpr ⟨_, told, rfl⟩, rfl⟩
        simp [none_] at due
      rw [silent]
      exact ⟨wired, by simp⟩
  · exact (opens (h.openTurn s).1).elim
  · obtain ⟨wired, reported⟩ := h.raised s
    exact ⟨wired, fun report hr _ => reported report hr⟩

/-! ## Steps that apply nothing -/

theorem ledger_raiseNext (n : Node) (s : Site) (t : Turn) (c : Reassignment.Cycle) (later : List Turn) :
    (n.raiseNext s t c later).1.engine.ledger = n.engine.ledger := by
  unfold Node.raiseNext
  split
  · rfl
  · obtain ⟨evaluations, eq, -⟩ := stepEngine_cases s _ (.submit (.cycle t.job) _)
    rw [propose, eq]
    exact Engine.ledger_submit ..

theorem ledger_beginTurn (n : Node) (s : Site) (t : Turn) (later : List Turn)
    (x : Option (Reassigner × Reassignment.Cycle)) :
    (n.beginTurn s t later x).1.engine.ledger = n.engine.ledger := by
  cases x with
  | none => rfl
  | some x => exact ledger_raiseNext ..

theorem ledger_openTurn (n : Node) (s : Site) : (n.openTurn s).1.engine.ledger = n.engine.ledger := by
  cases turns : n.turns with
  | nil => simp only [Node.openTurn, turns]
  | cons t later =>
    rw [openTurn_cons s turns]
    exact n.ledger_beginTurn s t later _

theorem ledger_raised (n : Node) (s : Site) (result : Except Fault ProposalResult) :
    (n.raised s result).1.engine.ledger = n.engine.ledger := by
  unfold Node.raised
  split
  · split
    · split
      · exact ledger_raiseNext ..
      · rfl
    · rfl
  · rfl

theorem ledger_review (n : Node) (s : Site) (job : Nat) (now : Timestamp) :
    (n.review s job now).1.engine.ledger = n.engine.ledger := by
  unfold Node.review
  split
  · dsimp only
    split
    · exact ledger_openTurn ..
    · rfl
  · rfl

/-- A step that marks no id executed changes no role. -/
theorem Wired.still (h : Wired base (i :: rest) n) (s : Site) (unmarked : (Move.mk n s i).marked = []) :
    (n.step s i).1.roles = n.roles := by
  obtain free | rfl | ⟨result, rfl⟩ := h.inputs i List.mem_cons_self
  · by_cases reviews : ∃ job now, i = .review job now
    · obtain ⟨job, now, rfl⟩ := reviews
      exact congrArg Ledger.roles (n.ledger_review s job now)
    · cases aside_step s n free fun job now same => reviews ⟨job, now, same⟩ with
      | still turns engine relays => exact congrArg (·.ledger.roles) engine
      | moved turns c i' asks engine relays => exact (kept_of_unmarked h.fit engine unmarked).1
  · exact congrArg Ledger.roles (n.ledger_openTurn s)
  · exact congrArg Ledger.roles (n.ledger_raised s result)

end Wired

end FleetCoordination.Node
