import Mathlib.Data.List.Dedup
import Mathlib.Data.List.Flatten
import FleetCoordination.Proofs.Engine.History
/-!
# Applying once

An action goes to the executor or to the role table in the turn that marks its id
executed. While an id is remembered it is not marked again, so as many others as the
window holds are marked before it is tried a second time.
-/
namespace FleetCoordination.Engine
variable {κ : Type}

def Report.ticket? : Report → Option Nat
  | .handed ticket => some ticket
  | _ => none

def Report.reassigned? : Report → Option ProposalId
  | .reassigned id => some id
  | _ => none

/-- The tickets of the applications that went to the executor. -/
def ticketsIn (reports : List Report) : List Nat := reports.filterMap Report.ticket?

/-- The ids under which roles were set, one for each role. -/
def roleIdsIn (reports : List Report) : List ProposalId := reports.filterMap Report.reassigned?

section Reports
variable (id : ProposalId) (reports reports' : List Report)

@[simp] theorem ticketsIn_append : ticketsIn (reports ++ reports') = ticketsIn reports ++ ticketsIn reports' := by
  simp [ticketsIn]

@[simp] theorem roleIdsIn_append : roleIdsIn (reports ++ reports') = roleIdsIn reports ++ roleIdsIn reports' := by
  simp [roleIdsIn]

@[simp] theorem ticketsIn_committed : ticketsIn (.committed id :: reports) = ticketsIn reports := rfl
@[simp] theorem roleIdsIn_committed : roleIdsIn (.committed id :: reports) = roleIdsIn reports := rfl

@[simp] theorem ticketsIn_reassigned (n : Nat) : ticketsIn (List.replicate n (.reassigned id)) = [] := by
  simp [ticketsIn, Report.ticket?]

@[simp] theorem roleIdsIn_reassigned (n : Nat) :
    roleIdsIn (List.replicate n (.reassigned id)) = List.replicate n id := by
  have read : Report.reassigned? (.reassigned id) = some id := rfl
  exact List.filterMap_replicate_of_some read

variable (self : AgentId) (c : Surroundings) (applied : Bool) (purpose : Purpose κ)

@[simp] theorem ticketsIn_answer : ticketsIn (answer self c id applied purpose) = [] := by
  cases purpose with
  | delivery sender => simp only [answer]; split <;> rfl
  | commit | propagation | approval | direct => rfl

@[simp] theorem roleIdsIn_answer : roleIdsIn (answer self c id applied purpose) = [] := by
  cases purpose with
  | delivery sender => simp only [answer]; split <;> rfl
  | commit | propagation | approval | direct => rfl

end Reports

/-- The ids of the applications that went to the executor. -/
def Books.handed (b : Books κ) (reports : List Report) : List ProposalId :=
  (ticketsIn reports).flatMap fun ticket => (b.applications.filter fun a => a.ticket = ticket).map (·.id)

/-- The ids whose actions a turn takes to the executor or to the role table. -/
def Turn.reached (t : Turn κ) : List ProposalId := t.after.books.handed t.reports ++ (roleIdsIn t.reports).dedup

section Entry
variable {c : Surroundings} {asked : ProposalId → Purpose κ → Prop} {b b' : Books κ} {reports told : List Report}
  {marks failures : List ProposalId}

theorem Books.Kept.filter_new (h : b.Kept marks failures told) (a : Application κ) (new : a.ticket = b.tickets) :
    (b.applications ++ [a]).filter (fun a => a.ticket = b.tickets) = [a] := by
  have old : b.applications.filter (fun a => a.ticket = b.tickets) = [] := by
    simp only [List.filter_eq_nil_iff, decide_eq_true_eq]
    exact fun a' ha' => Nat.ne_of_lt (h.issued a' ha')
  simp [old, new]

/-- An entry takes at most one action to the executor or to the role table, and its id is
the one that is newly marked executed. Roles are set in no other way. -/
theorem Entry.single (entry : Entry c asked b reports b') (h : b.Kept marks failures told) :
    (b.ledger.executed.gained b'.ledger.executed).length ≤ 1 ∧
    (b'.handed reports ++ (roleIdsIn reports).dedup = [] ∨
      b'.handed reports ++ (roleIdsIn reports).dedup = b.ledger.executed.gained b'.ledger.executed) ∧
    (b'.handed reports).length = (ticketsIn reports).length ∧
    (roleIdsIn reports = [] → b'.ledger.roles = b.ledger.roles) := by
  have newly {id} (new : b.ledger.executed.contains id = false) :
      b.ledger.executed.gained (b.ledger.executed.insert id).1 = [id] := by
    rw [ExecutedWindow.insert_of_new new, ExecutedWindow.gained_push h.executed.capacity new]
  cases entry with
  | idle => simp [ExecutedWindow.gained_self, Books.handed, ticketsIn, roleIdsIn]
  | repeated => simp [ExecutedWindow.gained_self, Books.handed]
  | handed id action purpose new =>
    have ticket : ticketsIn [.handed b.tickets] = [b.tickets] := rfl
    have quiet : roleIdsIn [.handed b.tickets] = [] := rfl
    have applying := h.filter_new { ticket := b.tickets, id, action, purpose } rfl
    simp only [Ledger.enter, newly new, Books.handed, ticket, quiet, List.flatMap_cons, applying]
    simp
  | reassigned id changes purpose new =>
    simp only [Ledger.enter, newly new, Books.handed, List.map_const', ticketsIn_append, roleIdsIn_append,
      ticketsIn_reassigned, roleIdsIn_reassigned, ticketsIn_committed, roleIdsIn_committed]
    cases changes with
    | nil => simp [Reassignment.reassign]
    | cons => simp [List.replicate_dedup]
  | refused id purpose new => simp [Ledger.enter, Ledger.fail, newly new, Books.handed]
  | succeeded a open_ => simp [ExecutedWindow.gained_self, Books.handed]
  | failed a open_ => simp [Ledger.fail, ExecutedWindow.gained_self, Books.handed]

end Entry

/-- What a turn takes to the executor or to the role table is one action at most, and its id
is the one that the turn marks executed. -/
structure Turn.Single (t : Turn κ) : Prop where
  marked : t.marked.length ≤ 1
  reached : t.reached = [] ∨ t.reached = t.marked
  handed : (t.after.books.handed t.reports).length = (ticketsIn t.reports).length
  roles : roleIdsIn t.reports = [] → t.after.ledger.roles = t.before.ledger.roles

section History
variable {self : AgentId} {settings : ConsensusSettings} {fallback : Bool} {turns before between after : List (Turn κ)}
  {e : Engine κ} {t t' : Turn κ} {id : ProposalId}

theorem History.single (h : History (create self settings fallback) turns e) (ht : t ∈ turns) : t.Single := by
  obtain ⟨before, after, split⟩ := List.append_of_mem ht
  obtain ⟨marked, reached, handed, roles⟩ := t.entry.single (h.until split).kept
  exact ⟨marked, reached, handed, roles⟩

theorem Turn.Single.marked_eq (h : t.Single) (marks : id ∈ t.marked) : t.marked = [id] := by
  obtain ⟨id', only⟩ := List.length_eq_one_iff.mp (Nat.le_antisymm h.marked (List.length_pos_of_mem marks))
  rw [only] at marks ⊢
  rw [List.mem_singleton.mp marks]

theorem Turn.Single.reached_sublist (h : t.Single) : t.reached.Sublist t.marked := by
  obtain none | same := h.reached
  · rw [none]
    exact List.nil_sublist _
  · rw [same]

theorem History.spaced (h : History (create self settings fallback) turns e) :
    ExecutedWindow.Spaced (max 1 settings.dedupCapacity) (marks turns) := by
  have spaced := h.kept.executed.spaced
  rwa [show e.books.ledger.executed.capacity = _ from h.capacities.1] at spaced

/-- Between two turns that mark one id, as many others as the window holds are marked. -/
theorem History.apart (h : History (create self settings fallback) turns e)
    (split : turns = before ++ t :: between ++ t' :: after) (marks : id ∈ t.marked) (marks' : id ∈ t'.marked) :
    ∃ others : Finset ProposalId, max 1 settings.dedupCapacity ≤ others.card ∧
      ∀ o ∈ others, o ≠ id ∧ ∃ u ∈ between, o ∈ u.marked := by
  have only := (h.single (t := t) (by simp [split])).marked_eq marks
  have only' := (h.single (t := t') (by simp [split])).marked_eq marks'
  have past := (h.until split).spaced
  have marked : Engine.marks (before ++ t :: between) = Engine.marks before ++ id :: Engine.marks between := by
    simp [Engine.marks, only]
  have gone := h.spaced (Engine.marks (before ++ t :: between)) id (Engine.marks after)
    (by simp [split, Engine.marks, only'])
  rw [marked] at gone past
  obtain ⟨others, many, differ⟩ := past.others gone
  exact ⟨others, many, fun o ho => ⟨(differ o ho).1, List.mem_flatMap.mp (differ o ho).2⟩⟩

/-- While no more ids are marked than the window holds, each reaches the executor or the
role table once at most. -/
theorem History.reached_nodup (h : History (create self settings fallback) turns e)
    (few : (marks turns).toFinset.card ≤ max 1 settings.dedupCapacity) : (turns.flatMap Turn.reached).Nodup :=
  (h.spaced.nodup_of_card few).sublist (List.Sublist.flatMap_right turns fun _ ht => (h.single ht).reached_sublist)

end History

/-- An id is tried again only after as many others as the window holds, at least one, were
newly marked executed; until then it reaches the executor or the role table once at most. -/
theorem application_at_most_once {self : AgentId} {settings : ConsensusSettings} {fallback : Bool}
    {turns : List (Turn κ)} {e : Engine κ} (h : History (create self settings fallback) turns e) :
    (∀ t ∈ turns, t.Single) ∧
    (∀ before t between t' after id, turns = before ++ t :: between ++ t' :: after → id ∈ t.marked → id ∈ t'.marked →
      ∃ others : Finset ProposalId, max 1 settings.dedupCapacity ≤ others.card ∧
        ∀ o ∈ others, o ≠ id ∧ ∃ u ∈ between, o ∈ u.marked) ∧
    ((marks turns).toFinset.card ≤ max 1 settings.dedupCapacity → (turns.flatMap Turn.reached).Nodup) :=
  ⟨fun _ ht => h.single ht, fun _ _ _ _ _ _ split => h.apart split, h.reached_nodup⟩

/-- With a window of one id, the first of two ids is applied again after the second. -/
theorem application_at_most_once_evicted : ∃ t t' t'' e,
    History (create "A" { dedupCapacity := 1 } true : Engine Unit) [t, t', t''] e ∧ .ofNat 1 ∈ t.marked ∧
      .ofNat 1 ∈ t''.marked ∧ ∃ others : Finset ProposalId, 1 ≤ others.card ∧
        ∀ o ∈ others, o ≠ .ofNat 1 ∧ ∃ u ∈ [t'], o ∈ u.marked := by
  let c : Surroundings := { leadership := .fixed "A" none 0, alive := [] }
  have origin : History (create "A" { dedupCapacity := 1 } true : Engine Unit) [] _ := .start
  have past := (origin.step c (.apply () (.ofNat 1) "noop" .null)).step c (.apply () (.ofNat 2) "noop" .null)
  have again := past.step c (.apply () (.ofNat 1) "noop" .null)
  exact ⟨_, _, _, _, again, by decide, by decide,
    (application_at_most_once again).2.1 [] _ [_] _ [] (.ofNat 1) rfl (by decide) (by decide)⟩

end FleetCoordination.Engine
