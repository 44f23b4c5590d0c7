import FleetCoordination.Proofs.Engine.Slots
import FleetCoordination.Proofs.Proposal
/-!
# Reassigning by proposals

A reassignment of roles is never with the executor: the step that ends its round answers it,
and sets the roles if the outcome is a commit of an id that is not remembered. A step that
marks no id executed sets no role.
-/
namespace FleetCoordination

/-- A round about a reassignment of roles. -/
structure Round.Reassigns {κ : Type} (r : Round κ) (content : RoleReassignment) : Prop where
  action : r.proposal.action = RoleReassignment.action
  params : RoleReassignment.ofJson? r.proposal.params = some content

namespace Engine
variable {κ : Type}

/-- The rounds that some callers wait for. -/
def awaited (e : Engine κ) (mine : κ → Bool) : List (Round κ) := e.rounds.filter fun r => mine r.caller

/-- Whose commits are with the executor, of some callers. -/
def executing (e : Engine κ) (mine : κ → Bool) : List κ :=
  (e.applications.filterMap fun a => a.purpose.submitter?).filter mine

/-- What some callers are told of their submissions. -/
def Output.told? (mine : κ → Bool) : Output κ → Option (Except Fault ProposalResult)
  | .submitted caller result => if mine caller then some result else none
  | _ => none

def answersTo (mine : κ → Bool) (outputs : List (Output κ)) : List (Except Fault ProposalResult) :=
  outputs.filterMap (Output.told? mine)

section Outputs
variable (mine : κ → Bool)

@[simp] theorem answersTo_nil : answersTo mine ([] : List (Output κ)) = [] := rfl

@[simp] theorem answersTo_cons (o : Output κ) (outputs : List (Output κ)) :
    answersTo mine (o :: outputs) = (o.told? mine).toList ++ answersTo mine outputs := by
  cases h : o.told? mine <;> simp [answersTo, h]

@[simp] theorem answersTo_append (xs ys : List (Output κ)) :
    answersTo mine (xs ++ ys) = answersTo mine xs ++ answersTo mine ys := by
  simp [answersTo]

@[simp] theorem answersTo_publish (c : Surroundings) (env : Envelope) :
    answersTo mine (publish c env : List (Output κ)) = [] := by
  unfold publish
  split <;> rfl

theorem length_answersTo (outputs : List (Output κ)) :
    (answersTo mine outputs).length = ((answered outputs).filter mine).length := by
  induction outputs with
  | nil => rfl
  | cons o outputs ih =>
    cases o with
    | submitted caller result =>
      cases h : mine caller <;> simp [Output.told?, Output.answered?, h, ih]
    | _ => simpa [Output.told?, Output.answered?] using ih

end Outputs

/-- An engine in order, with none of some callers' commits at the executor. -/
structure Fit (mine : κ → Bool) (e : Engine κ) : Prop where
  ids : (e.slots.map Prod.snd).Nodup
  issued : ∀ a ∈ e.applications, a.ticket < e.tickets
  tickets : (e.applications.map (·.ticket)).Nodup
  capacity : 1 ≤ e.ledger.executed.capacity
  idle : e.executing mine = []

section Steps
variable {mine : κ → Bool} {e : Engine κ} {c : Surroundings} {i : Input κ}

theorem round?_of_held (once : (e.rounds.map Round.id).Nodup) {r : Round κ} (held : r ∈ e.rounds) :
    e.round? r.id = some r := by
  cases first : e.round? r.id with
  | none => exact (List.find?_eq_none.mp first r held (by simp)).elim
  | some r' =>
    rw [List.inj_on_of_nodup_map once (List.mem_of_find?_eq_some first) held (id_of_round? first)]

theorem length_filter_owing (mine : κ → Bool) (e : Engine κ) : (e.owing.filter mine).length =
    (e.awaited mine).length + (e.executing mine).length := by
  rw [owing, List.filter_append, List.length_append, List.filter_map, List.length_map]
  rfl

/-- Of what some callers wait for, a step answers or keeps as much as there was. -/
theorem Fit.balance (h : Fit mine e) (c : Surroundings) (unasked : ∀ caller ∈ i.submitter?, mine caller = false) :
    (answersTo mine (e.step c i).2).length + ((e.step c i).1.awaited mine).length +
      ((e.step c i).1.executing mine).length = (e.awaited mine).length := by
  have ids : (e.rounds.map Round.id).Nodup := e.ids_slots ▸ h.ids
  have asked : i.submitter?.toList.filter mine = [] := by
    cases asks : i.submitter? with
    | none => rfl
    | some caller => simp [unasked caller (by simp [asks])]
  have balances := (((balances_step c ids h.tickets i).answers.filter mine)).length_eq
  rw [List.filter_append, List.filter_append, asked, List.nil_append, List.length_append, length_filter_owing,
    length_filter_owing, h.idle, ← length_answersTo] at balances
  simpa [Nat.add_assoc] using balances

theorem Fit.step (h : Fit mine e) (c : Surroundings) (i : Input κ) (idle : (e.step c i).1.executing mine = []) :
    Fit mine (e.step c i).1 := by
  have turned := turned_rounds ⟨e, c, i⟩ h.ids h.tickets
  have entry := Turn.entry ⟨e, c, i⟩
  have capacity := h.capacity.trans_eq entry.capacities.1.symm
  exact ⟨turned.once, entry.issued h.issued, entry.tickets h.issued h.tickets, capacity, idle⟩

/-- A step that marks no id executed leaves the roles and the window as they are. -/
theorem Turn.roles_of_unmarked {t : Turn κ} (capacity : 1 ≤ t.before.ledger.executed.capacity)
    (unmarked : t.marked = []) :
    t.after.ledger.roles = t.before.ledger.roles ∧ t.after.ledger.executed = t.before.ledger.executed := by
  have gains {id} (new : t.before.ledger.executed.contains id = false) :
      t.before.ledger.executed.gained (t.before.ledger.executed.insert id).1 ≠ [] := by
    rw [ExecutedWindow.insert_of_new new, ExecutedWindow.gained_push capacity new]
    exact List.cons_ne_nil _ _
  have entry := t.entry
  change t.before.books.ledger.executed.gained t.after.books.ledger.executed = [] at unmarked
  change t.after.books.ledger.roles = t.before.books.ledger.roles ∧
    t.after.books.ledger.executed = t.before.books.ledger.executed
  generalize t.after.books = after at entry unmarked ⊢
  generalize t.reports = reports at entry
  cases entry with
  | idle | repeated | succeeded | failed => exact ⟨rfl, rfl⟩
  | handed _ _ _ new | reassigned _ _ _ new | refused _ _ new => exact (gains new unmarked).elim

/-! ## The end of a reassignment -/

theorem answersTo_settle_commit (mine : κ → Bool) (e : Engine κ) (c : Surroundings) (id : ProposalId) {caller : κ}
    (his : mine caller = true) (r : ProposalResult) (result : Except Fault Bool) :
    answersTo mine (e.settle c id (.commit r caller) result).2 = [result.map fun _ => r] := by
  simp [settle, Output.told?, his]

theorem answersTo_reassigned (mine : κ → Bool) (changes : List RoleChange) (id : ProposalId) (c : Surroundings) :
    answersTo mine (changes.map fun change => (.announce (.roleReassigned change id (time c)) : Output κ)) = [] := by
  refine List.filterMap_eq_nil_iff.mpr fun o ho => ?_
  obtain ⟨change, -, rfl⟩ := List.mem_map.mp ho
  rfl

/-- The round of a reassignment is answered as it ends. If its id is not remembered, the answer is
its result, and a commit sets the roles. -/
theorem closeRound_of_reassigns {r : Round κ} {content : RoleReassignment} (h : r.Reassigns content)
    (his : mine r.caller = true) (e : Engine κ) (c : Surroundings) (o : Outcome) :
    ∃ result, answersTo mine (e.closeRound c r o).2 = [result] ∧
      (e.ledger.executed.contains r.id = false → result = .ok (r.result o) ∧
        (e.closeRound c r o).1.ledger.roles =
          if o.committed then Reassignment.reassign e.ledger.roles content.changes else e.ledger.roles) := by
  have resolution : (resolved c r o).told? mine = none := rfl
  unfold closeRound
  split
  · have sent : answersTo mine ((e.endRound r o).broadcast c (.approval (r.approval o))) = [] := answersTo_publish ..
    simp only [answersTo_cons, answersTo_append, resolution, sent, Option.toList_none, List.nil_append, apply]
    cases known : e.ledger.executed.contains r.id with
    | true =>
      rw [Ledger.start_of_contains (l := (e.endRound r o).ledger) known]
      exact ⟨_, answersTo_settle_commit _ _ _ _ his .., by simp⟩
    | false =>
      rw [Ledger.start_of_new (l := (e.endRound r o).ledger) known, if_pos h.action, Ledger.reassign, h.params]
      refine ⟨.ok (r.result o), ?_, fun _ => ⟨rfl, rfl⟩⟩
      rw [answersTo_append, answersTo_reassigned, List.nil_append, answersTo_cons, answersTo_settle_commit _ _ _ _ his]
      rfl
  · refine ⟨.ok (r.result o), ?_, fun _ => ⟨rfl, rfl⟩⟩
    rw [answersTo_cons, resolution, answersTo_cons]
    simp [Output.told?, his]

/-! ## One reassignment at a time -/

/-- While some callers wait for no round, they are told nothing. -/
theorem Fit.quiet (h : Fit mine e) (none_ : e.awaited mine = []) (c : Surroundings)
    (unasked : ∀ caller ∈ i.submitter?, mine caller = false) :
    Fit mine (e.step c i).1 ∧ (e.step c i).1.awaited mine = [] ∧ answersTo mine (e.step c i).2 = [] := by
  have balance := h.balance c unasked
  simp only [none_, List.length_nil, Nat.add_eq_zero_iff, List.length_eq_zero_iff] at balance
  exact ⟨h.step c i balance.2, balance.1.2, balance.1.1⟩

/-- A step leaves the one reassignment that some callers wait for under way, or ends it. -/
theorem Fit.turn (h : Fit mine e) {r : Round κ} {content : RoleReassignment} (one : e.awaited mine = [r])
    (about : r.Reassigns content) (c : Surroundings) (unasked : ∀ caller ∈ i.submitter?, mine caller = false) :
    Fit mine (e.step c i).1 ∧
      ((∃ r' : Round κ, r'.charter = r.charter ∧ (e.step c i).1.awaited mine = [r'] ∧
          answersTo mine (e.step c i).2 = []) ∨
        (e.step c i).1.awaited mine = [] ∧ ∃ result, answersTo mine (e.step c i).2 = [result] ∧
          (e.ledger.executed.contains r.id = false →
            (∃ (r' : Round κ) (o : Outcome), result = .ok (r'.result o) ∧ (e.step c i).1.ledger.roles =
                if o.committed then Reassignment.reassign e.ledger.roles content.changes else e.ledger.roles) ∨
              (∃ f, result = .error (.transport f)) ∧ (e.step c i).1.ledger.roles = e.ledger.roles)) := by
  have balance := h.balance c unasked
  rw [one] at balance
  obtain ⟨held, his⟩ := List.mem_filter.mp (one ▸ List.mem_singleton_self r : r ∈ e.awaited mine)
  have found : e.round? r.id = some r := round?_of_held (e.ids_slots ▸ h.ids) held
  have charter := r.charter_after e.self i
  have caller : (r.after e.self i).caller = r.caller := congrArg Prod.fst charter
  have proposal : (r.after e.self i).proposal = r.proposal := congrArg (·.2.1) charter
  obtain ⟨o, closes⟩ | ⟨f, gives⟩ | ⟨stays, -⟩ := round?_step found c i
  · obtain ⟨-, m, eq⟩ := step_of_closing closes
    obtain ⟨result, told, known⟩ := closeRound_of_reassigns (r := r.after e.self i)
      ⟨proposal ▸ about.action, proposal ▸ about.params⟩ (caller ▸ his) { e with metrics := m } c o
    rw [← eq] at told known
    rw [told] at balance
    have rest : (e.step c i).1.awaited mine = [] ∧ (e.step c i).1.executing mine = [] := by
      simpa [Nat.add_assoc] using balance
    rw [Round.id_after] at known
    exact ⟨h.step c i rest.2, .inr ⟨rest.1, result, told, fun new => .inl ⟨_, o, known new⟩⟩⟩
  · have eq := step_of_abandoned gives c
    have told : answersTo mine (e.step c i).2 = [.error (.transport f)] := by
      rw [eq]
      simp [refuse, Output.told?, his]
    rw [told] at balance
    have rest : (e.step c i).1.awaited mine = [] ∧ (e.step c i).1.executing mine = [] := by
      simpa [Nat.add_assoc] using balance
    have kept : (e.step c i).1.ledger.roles = e.ledger.roles := by
      rw [eq]
      rfl
    exact ⟨h.step c i rest.2, .inr ⟨rest.1, _, told, fun _ => .inr ⟨⟨f, rfl⟩, kept⟩⟩⟩
  · have kept : r.after e.self i ∈ (e.step c i).1.awaited mine :=
      List.mem_filter.mpr ⟨List.mem_of_find?_eq_some stays, caller ▸ his⟩
    have some_ := List.length_pos_of_mem kept
    simp only [List.length_singleton] at balance
    obtain ⟨r', only⟩ : ∃ r', (e.step c i).1.awaited mine = [r'] := List.length_eq_one_iff.mp (by omega)
    rw [only, List.mem_singleton] at kept
    have idle : (e.step c i).1.executing mine = [] := List.length_eq_zero_iff.mp (by omega)
    have silent : answersTo mine (e.step c i).2 = [] := List.length_eq_zero_iff.mp (by omega)
    exact ⟨h.step c i idle, .inl ⟨r', kept ▸ charter, only, silent⟩⟩

theorem ledger_submit (e : Engine κ) (c : Surroundings) (caller : κ) (p : Proposal) :
    (e.submit c caller p).1.ledger = e.ledger := by
  obtain ⟨m, f, eq⟩ | ⟨-, m, eq⟩ := e.submit_cases c caller p
  · rw [eq, refuse]
  · rw [eq]

/-- A submission is refused, or its round is the one that its caller waits for. -/
theorem Fit.submit (h : Fit mine e) (none_ : e.awaited mine = []) (c : Surroundings) {caller : κ}
    (his : mine caller = true) (p : Proposal) :
    Fit mine (e.submit c caller p).1 ∧
      ((e.submit c caller p).1.awaited mine = [] ∧ (∃ f, answersTo mine (e.submit c caller p).2 = [.error f]) ∨
        e.ledger.executed.contains p.id = false ∧ answersTo mine (e.submit c caller p).2 = [] ∧
          ∃ r : Round κ, r.proposal = p ∧ (e.submit c caller p).1.awaited mine = [r]) := by
  have fit := h.step c (.submit caller p)
  rw [Engine.step] at fit
  obtain ⟨m, f, eq⟩ | ⟨free, m, eq⟩ := e.submit_cases c caller p <;> rw [eq] at fit ⊢
  · exact ⟨fit h.idle, .inl ⟨none_, f, by simp [refuse, Output.told?, his]⟩⟩
  · have new : e.ledger.executed.contains p.id = false := (Bool.or_eq_false_iff.mp free).2
    refine ⟨fit h.idle, .inr ⟨new, ?_, e.opening c caller p, rfl, ?_⟩⟩
    · simp [Output.told?]
    · have first : e.rounds.filter (fun r => mine r.caller) = [] := none_
      simp [awaited, first, Engine.opening, his]

end Steps

end Engine

end FleetCoordination
