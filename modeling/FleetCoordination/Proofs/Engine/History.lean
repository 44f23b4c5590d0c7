import Mathlib.Data.List.Nodup
import FleetCoordination.Proofs.Engine.Books
import FleetCoordination.Proofs.ExecutedWindow
/-!
# Histories of an engine

A history is the turns an engine has taken, in any order its inputs came. The ids that its
turns have marked executed or failed are what its windows hold the last of.
-/
namespace FleetCoordination.Engine
variable {κ : Type}

/-- An input, with the engine and the surroundings it meets. -/
structure Turn (κ : Type) where
  before : Engine κ
  surroundings : Surroundings
  input : Input κ

namespace Turn

def after (t : Turn κ) : Engine κ := (t.before.step t.surroundings t.input).1
def outputs (t : Turn κ) : List (Output κ) := (t.before.step t.surroundings t.input).2
def reports (t : Turn κ) : List Report := Engine.reports t.outputs

/-- The ids that a turn newly marks executed. -/
def marked (t : Turn κ) : List ProposalId := t.before.ledger.executed.gained t.after.ledger.executed

/-- The ids that a turn newly marks failed. -/
def spoiled (t : Turn κ) : List ProposalId := t.before.ledger.failed.gained t.after.ledger.failed

theorem entry (t : Turn κ) :
    Entry t.surroundings (t.input.Asks t.before t.surroundings) t.before.books t.reports t.after.books :=
  t.before.entry_step t.surroundings t.input

end Turn

/-- The turns from an engine to another, oldest first. -/
inductive History (origin : Engine κ) : List (Turn κ) → Engine κ → Prop
  | start : History origin [] origin
  | step {turns : List (Turn κ)} {e : Engine κ} (past : History origin turns e) (c : Surroundings) (i : Input κ) :
      History origin (turns ++ [⟨e, c, i⟩]) (e.step c i).1

def marks (turns : List (Turn κ)) : List ProposalId := turns.flatMap Turn.marked
def failures (turns : List (Turn κ)) : List ProposalId := turns.flatMap Turn.spoiled

/-- All that was reported, oldest first. -/
def told (turns : List (Turn κ)) : List Report := turns.flatMap Turn.reports

section Split
variable (turns : List (Turn κ)) (t : Turn κ)

@[simp] theorem marks_snoc : marks (turns ++ [t]) = marks turns ++ t.marked := by simp [marks]
@[simp] theorem failures_snoc : failures (turns ++ [t]) = failures turns ++ t.spoiled := by simp [failures]
@[simp] theorem told_snoc : told (turns ++ [t]) = told turns ++ t.reports := by simp [told]

end Split

/-- The turns before a turn of a history lead to the engine it meets. -/
theorem History.until {origin e : Engine κ} {turns : List (Turn κ)} (h : History origin turns e)
    {before after : List (Turn κ)} {t : Turn κ} (split : turns = before ++ t :: after) :
    History origin before t.before := by
  induction h generalizing after with
  | start => simp at split
  | step past c i ih =>
    obtain ⟨rfl, rfl, -⟩ | ⟨init, -, earlier⟩ := split_of_snoc split
    · exact past
    · exact ih earlier

/-! ## Books of a history -/

/-- Whether an application is with the executor still, or its end was reported or marked. -/
def Books.Accounts (b : Books κ) (failures : List ProposalId) (told : List Report) (id : ProposalId) : Prop :=
  (∃ a ∈ b.applications, a.id = id) ∨ .committed id ∈ told ∨ id ∈ failures

/-- What the books of a history hold, by the ids marked executed, those marked failed and
all that was reported. -/
structure Books.Kept (b : Books κ) (marks failures : List ProposalId) (told : List Report) : Prop where
  executed : b.ledger.executed.Remembers marks
  failed : b.ledger.failed.Remembers failures
  issued : ∀ a ∈ b.applications, a.ticket < b.tickets
  tickets : (b.applications.map (·.ticket)).Nodup
  accounts : ∀ id, b.ledger.executed.contains id = true → b.Accounts failures told id

theorem kept_create (self : AgentId) (settings : ConsensusSettings) (fallback : Bool) :
    (create self settings fallback : Engine κ).books.Kept [] [] [] where
  executed := ExecutedWindow.remembers_ofCapacity _
  failed := ExecutedWindow.remembers_ofCapacity _
  issued := by simp [create, books]
  tickets := by simp [create, books]
  accounts := by simp [create, books, Ledger.ofCapacity, ExecutedWindow.ofCapacity, ExecutedWindow.contains]

section Entry
variable {c : Surroundings} {asked : ProposalId → Purpose κ → Prop} {b b' : Books κ} {reports told : List Report}
  {marks failures : List ProposalId}

theorem Entry.capacities (entry : Entry c asked b reports b') :
    b'.ledger.executed.capacity = b.ledger.executed.capacity ∧
      b'.ledger.failed.capacity = b.ledger.failed.capacity := by
  cases entry <;> simp [Ledger.enter, Ledger.fail]

theorem Entry.executed (entry : Entry c asked b reports b') (h : b.ledger.executed.Remembers marks) :
    b'.ledger.executed.Remembers (marks ++ b.ledger.executed.gained b'.ledger.executed) := by
  cases entry with
  | idle | repeated | succeeded | failed => exact h.keep
  | handed id | reassigned id | refused id => exact h.insert id

theorem Entry.spoiled (entry : Entry c asked b reports b') (h : b.ledger.failed.Remembers failures) :
    b'.ledger.failed.Remembers (failures ++ b.ledger.failed.gained b'.ledger.failed) := by
  cases entry with
  | idle | repeated | succeeded | handed | reassigned => exact h.keep
  | refused id | failed a => exact h.insert _

theorem Entry.issued (entry : Entry c asked b reports b') (h : ∀ a ∈ b.applications, a.ticket < b.tickets) :
    ∀ a ∈ b'.applications, a.ticket < b'.tickets := by
  cases entry with
  | idle | repeated | reassigned | refused => exact h
  | handed id action purpose =>
    intro a ha
    rcases List.mem_append.mp ha with old | new
    · exact Nat.lt_succ_of_lt (h a old)
    · rw [List.mem_singleton.mp new]
      exact Nat.lt_succ_self _
  | succeeded a open_ | failed a open_ => exact fun a' ha' => h a' (List.mem_filter.mp ha').1

theorem Entry.tickets (entry : Entry c asked b reports b') (issued : ∀ a ∈ b.applications, a.ticket < b.tickets)
    (h : (b.applications.map (·.ticket)).Nodup) : (b'.applications.map (·.ticket)).Nodup := by
  cases entry with
  | idle | repeated | reassigned | refused => exact h
  | handed id action purpose =>
    have fresh : b.tickets ∉ b.applications.map (·.ticket) := by
      rintro old
      obtain ⟨a, ha, same⟩ := List.mem_map.mp old
      exact Nat.ne_of_lt (issued a ha) same
    simpa [List.nodup_append, h] using fresh
  | succeeded a open_ | failed a open_ => exact h.sublist (List.filter_sublist.map _)

/-- An application that leaves the executor is the only one of its ticket. -/
theorem Books.Kept.remaining (h : b.Kept marks failures told) {a a' : Application κ} (ha : a ∈ b.applications)
    (ha' : a' ∈ b.applications) : a' = a ∨ a' ∈ b.applications.filter fun a' => a'.ticket ≠ a.ticket := by
  by_cases same : a'.ticket = a.ticket
  · exact .inl (List.inj_on_of_nodup_map h.tickets ha' ha same)
  · exact .inr (List.mem_filter.mpr ⟨ha', by simpa using same⟩)

theorem Entry.accounts (entry : Entry c asked b reports b') (h : b.Kept marks failures told) (id : ProposalId)
    (held : b'.ledger.executed.contains id = true) :
    b'.Accounts (failures ++ b.ledger.failed.gained b'.ledger.failed) (told ++ reports) id := by
  have spoiled := entry.spoiled h.failed
  -- what has ended stays so; an application may leave the executor
  have carry (old : b.Accounts failures told id)
      (left : ∀ a ∈ b.applications, a.id = id → (∃ a ∈ b'.applications, a.id = id) ∨ .committed id ∈ told ++ reports ∨
        id ∈ failures ++ b.ledger.failed.gained b'.ledger.failed) :
      b'.Accounts (failures ++ b.ledger.failed.gained b'.ledger.failed) (told ++ reports) id := by
    obtain ⟨a, ha, same⟩ | committed | failed := old
    · exact left a ha same
    · exact .inr (.inl (List.mem_append_left _ committed))
    · exact .inr (.inr (List.mem_append_left _ failed))
  cases entry with
  | idle | repeated => exact carry (h.accounts id held) fun a ha same => .inl ⟨a, ha, same⟩
  | handed new action purpose =>
    obtain old | rfl := ExecutedWindow.contains_of_insert held
    · exact carry (h.accounts id old) fun a ha same => .inl ⟨a, List.mem_append_left _ ha, same⟩
    · exact .inl ⟨_, List.mem_append_right _ (List.mem_singleton_self _), rfl⟩
  | reassigned new changes purpose =>
    obtain old | rfl := ExecutedWindow.contains_of_insert held
    · exact carry (h.accounts id old) fun a ha same => .inl ⟨a, ha, same⟩
    · exact .inr (.inl (by simp))
  | refused new purpose =>
    obtain old | rfl := ExecutedWindow.contains_of_insert held
    · exact carry (h.accounts id old) fun a ha same => .inl ⟨a, ha, same⟩
    · exact .inr (.inr (spoiled.mem (ExecutedWindow.contains_insert h.failed.capacity id)))
  | succeeded a open_ =>
    refine carry (h.accounts id held) fun a' ha' same => ?_
    obtain rfl | stays := h.remaining open_ ha'
    · exact .inr (.inl (by simp [same]))
    · exact .inl ⟨a', stays, same⟩
  | failed a open_ =>
    refine carry (h.accounts id held) fun a' ha' same => ?_
    obtain rfl | stays := h.remaining open_ ha'
    · exact .inr (.inr (same ▸ spoiled.mem (ExecutedWindow.contains_insert h.failed.capacity a'.id)))
    · exact .inl ⟨a', stays, same⟩

theorem Entry.kept (entry : Entry c asked b reports b') (h : b.Kept marks failures told) :
    b'.Kept (marks ++ b.ledger.executed.gained b'.ledger.executed)
      (failures ++ b.ledger.failed.gained b'.ledger.failed) (told ++ reports) :=
  ⟨entry.executed h.executed, entry.spoiled h.failed, entry.issued h.issued, entry.tickets h.issued h.tickets,
    entry.accounts h⟩

end Entry

theorem History.kept {self : AgentId} {settings : ConsensusSettings} {fallback : Bool} {turns : List (Turn κ)}
    {e : Engine κ} (h : History (create self settings fallback) turns e) :
    e.books.Kept (marks turns) (failures turns) (told turns) := by
  induction h with
  | start => exact kept_create self settings fallback
  | step past c i ih =>
    rw [marks_snoc, failures_snoc, told_snoc]
    exact (Turn.entry ⟨_, c, i⟩).kept ih

theorem History.capacities {self : AgentId} {settings : ConsensusSettings} {fallback : Bool} {turns : List (Turn κ)}
    {e : Engine κ} (h : History (create self settings fallback) turns e) :
    e.ledger.executed.capacity = max 1 settings.dedupCapacity ∧
      e.ledger.failed.capacity = max 1 settings.dedupCapacity := by
  induction h with
  | start => exact ⟨Nat.max_comm .., Nat.max_comm ..⟩
  | step past c i ih =>
    obtain ⟨executed, failed⟩ := (Turn.entry ⟨_, c, i⟩).capacities
    exact ⟨executed.trans ih.1, failed.trans ih.2⟩

end FleetCoordination.Engine
