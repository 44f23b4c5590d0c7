import FleetCoordination.Proofs.Engine.Acknowledgement
import FleetCoordination.Proofs.Engine.Execution
import FleetCoordination.Proofs.Engine.Orders
import FleetCoordination.Proofs.Engine.RoleCommits
/-!
# Duplicates

An action under an id that is remembered as executed is answered from memory. What the window of
failures holds is what the answer says, whatever the latest application of the id came to: the mark
of a failure outlasts a later success, and a later failure does not refresh it.
-/
namespace FleetCoordination

/-- What an action comes to as it is set about, if that is known at once. -/
def Ledger.verdict? (l : Ledger) (o : Order) : Option Bool :=
  match (l.start o.id o.action o.params).2 with
  | .reassigned _ => some true
  | .refused _ => some false
  | .repeated _ | .handed => none

namespace Engine
variable {κ : Type}

/-- The application that ends in a turn, by its id and whether it went well. -/
def Turn.ended? (t : Turn κ) : Option (ProposalId × Bool) :=
  match t.input with
  | .executed ticket ended =>
    (t.before.applications.find? fun a => a.ticket = ticket).map fun a => (a.id, ended.isOk)
  | i => (t.before.order? t.surroundings i).bind fun o => (t.before.ledger.verdict? o).map (o.id, ·)

/-- The applications that have ended, oldest first. -/
def endings (turns : List (Turn κ)) : List (ProposalId × Bool) := turns.filterMap Turn.ended?

/-- Whether the latest application of an id that has ended went well. -/
def latest? (turns : List (Turn κ)) (id : ProposalId) : Option Bool :=
  ((endings turns).reverse.find? fun ending => ending.1 = id).map (·.2)

/-- The answer to a duplicate by what the latest application came to. -/
def promised (id : ProposalId) (ok : Bool) : Except Fault Bool :=
  if ok then .ok false else .error (.execution (.earlierFailure id))

/-! ## Endings -/

/-- What a step can do to the books, with the application that ends in it. -/
inductive Ends (b : Books κ) : Option (ProposalId × Bool) → Books κ → Prop
  | idle : Ends b none b
  | handed (o : Order) (purpose : Purpose κ) (new : b.ledger.executed.contains o.id = false) :
      Ends b none
        { b with
          ledger := b.ledger.enter o.id
          applications := b.applications ++ [{ ticket := b.tickets, id := o.id, action := o.action, purpose }]
          tickets := b.tickets + 1 }
  | atOnce (id : ProposalId) (ok : Bool) (l : Ledger) (new : b.ledger.executed.contains id = false)
      (executed : l.executed = (b.ledger.executed.insert id).1)
      (failed : l.failed = if ok then b.ledger.failed else (b.ledger.failed.insert id).1) :
      Ends b (some (id, ok)) { b with ledger := l }
  | released (a : Application κ) (ended : Except ExecutionFault Unit) (held : a ∈ b.applications) :
      Ends b (some (a.id, ended.isOk)) (b.release a ended)

theorem Books.ends_begin (b : Books κ) (o : Order) (purpose : Purpose κ) :
    Ends b ((b.ledger.verdict? o).map (o.id, ·)) (b.begin o purpose) := by
  cases known : b.ledger.executed.contains o.id with
  | true =>
    simp only [Books.begin, Ledger.verdict?, Ledger.start_of_contains known]
    exact .idle
  | false =>
    by_cases roles : o.action = RoleReassignment.action
    · simp only [Books.begin, Ledger.verdict?, Ledger.start_of_new known, if_pos roles]
      cases read : RoleReassignment.ofJson? o.params with
      | some r =>
        simp only [Ledger.reassign, read]
        exact .atOnce o.id true _ known rfl rfl
      | none =>
        simp only [Ledger.reassign, read]
        exact .atOnce o.id false _ known rfl rfl
    · simp only [Books.begin, Ledger.verdict?, Ledger.start_of_new known, if_neg roles]
      exact .handed o purpose known

theorem Turn.ends (t : Turn κ) : Ends t.before.books t.ended? t.after.books := by
  obtain ⟨e, c, i⟩ := t
  have going (order : (Turn.mk e c i).ended? = (e.order? c i).bind fun o => (e.ledger.verdict? o).map (o.id, ·))
      (other : ∀ ticket ended, i ≠ .executed ticket ended) :
      Ends e.books (Turn.mk e c i).ended? (e.step c i).1.books := by
    have obeys := e.obeys_step c other
    rw [order]
    generalize e.order? c i = ordered at obeys
    generalize (e.step c i).1.books = books at obeys
    cases obeys with
    | idle => exact .idle
    | begun o purpose => exact e.books.ends_begin o purpose
  cases i with
  | executed ticket ended =>
    simp only [Turn.ended?, Turn.after, step]
    cases found : e.applications.find? fun a => a.ticket = ticket with
    | none =>
      simp only [executed, found]
      exact .idle
    | some a =>
      rw [e.books_executed c found ended]
      exact .released a ended (List.mem_of_find?_eq_some found)
  | _ => exact going rfl (by simp)

section Ends
variable {b b' : Books κ} {ended : Option (ProposalId × Bool)} {failures : List ProposalId} {id : ProposalId}

/-- What is newly marked executed is with the executor, or has ended at once. -/
theorem Ends.perm (h : Ends b ended b') (capacity : 1 ≤ b.ledger.executed.capacity)
    (once : (b.applications.map (·.ticket)).Nodup) :
    (ended.toList.map Prod.fst ++ b'.applications.map (·.id)).Perm
      (b.ledger.executed.gained b'.ledger.executed ++ b.applications.map (·.id)) := by
  have newly {id} (new : b.ledger.executed.contains id = false) :
      b.ledger.executed.gained (b.ledger.executed.insert id).1 = [id] := by
    rw [ExecutedWindow.insert_of_new new, ExecutedWindow.gained_push capacity new]
  cases h with
  | idle => simp [ExecutedWindow.gained_self]
  | handed o purpose new => simp [Ledger.enter, newly new]
  | atOnce id ok l new executed => simp [executed, newly new]
  | released a ended held =>
    have kept : (b.ledger.conclude a.id ended).executed = b.ledger.executed := by cases ended <;> rfl
    simp only [Books.release, kept, ExecutedWindow.gained_self]
    exact ((perm_filter_ne once held).map (·.id)).symm

theorem Ends.failed (h : Ends b ended b') : b'.ledger.failed =
    match ended with
    | some (id, false) => (b.ledger.failed.insert id).1
    | _ => b.ledger.failed := by
  cases h with
  | idle | handed => rfl
  | atOnce id ok l new executed failed => cases ok <;> exact failed
  | released a ended => cases ended <;> rfl

/-- The ids that have been marked failed are those of which an application has failed. -/
theorem Ends.mem_failures (h : Ends b ended b') (kept : b.ledger.failed.Remembers failures) :
    id ∈ failures ++ b.ledger.failed.gained b'.ledger.failed ↔ id ∈ failures ∨ ended = some (id, false) := by
  rw [h.failed]
  match ended with
  | none => simp [ExecutedWindow.gained_self]
  | some (id', true) => simp [ExecutedWindow.gained_self]
  | some (id', false) =>
    rw [kept.mem_insert]
    simp [eq_comm]

end Ends

/-! ## Histories -/

theorem ids_endings (turns : List (Turn κ)) :
    (endings turns).map Prod.fst = turns.flatMap fun t => t.ended?.toList.map Prod.fst := by
  simp only [endings, List.filterMap_eq_flatMap_toList, List.map_flatMap]

@[simp] theorem endings_snoc (turns : List (Turn κ)) (t : Turn κ) :
    endings (turns ++ [t]) = endings turns ++ t.ended?.toList := by
  cases h : t.ended? <;> simp [endings, h]

theorem mem_endings_of_latest? {turns : List (Turn κ)} {id : ProposalId} {ok : Bool} (h : latest? turns id = some ok) :
    (id, ok) ∈ endings turns := by
  obtain ⟨⟨id', ok'⟩, found, rfl⟩ := Option.map_eq_some_iff.mp h
  obtain rfl : id' = id := by simpa using List.find?_some found
  exact List.mem_reverse.mp (List.mem_of_find?_eq_some found)

section Histories
variable {self : AgentId} {settings : ConsensusSettings} {fallback : Bool} {turns : List (Turn κ)} {e : Engine κ}
  {id : ProposalId}

/-- What was newly marked executed has ended since or is with the executor. -/
theorem History.marks_perm (h : History (create self settings fallback) turns e) :
    (marks turns).Perm ((endings turns).map Prod.fst ++ e.applications.map (·.id)) := by
  rw [ids_endings]
  exact h.due (fun e => e.applications.map (·.id)) rfl fun _ t past =>
    t.ends.perm past.kept.executed.capacity past.kept.tickets

theorem History.mem_failures (h : History (create self settings fallback) turns e) :
    id ∈ failures turns ↔ (id, false) ∈ endings turns := by
  induction h with
  | start => simp [failures, endings]
  | @step turns e past c i ih =>
    rw [failures_snoc, endings_snoc]
    refine ((Turn.ends ⟨e, c, i⟩).mem_failures past.kept.failed).trans ?_
    simp [ih]

theorem History.latest (h : History (create self settings fallback) turns e)
    (known : e.ledger.executed.contains id = true) (idle : ∀ a ∈ e.applications, a.id ≠ id) :
    ∃ ok, latest? turns id = some ok := by
  have marked : id ∈ marks turns := h.kept.executed.mem known
  obtain ended | open_ := List.mem_append.mp (h.marks_perm.mem_iff.mp marked)
  · obtain ⟨ending, held, rfl⟩ := List.mem_map.mp ended
    have found : ((endings turns).reverse.find? fun x => x.1 = ending.1).isSome = true :=
      List.find?_isSome.mpr ⟨ending, List.mem_reverse.mpr held, by simp⟩
    obtain ⟨x, found⟩ := Option.isSome_iff_exists.mp found
    exact ⟨x.2, by rw [latest?, found, Option.map_some]⟩
  · obtain ⟨a, held, same⟩ := List.mem_map.mp open_
    exact (idle a held same).elim

/-- While no more ids are marked than the window holds, no id is applied twice. -/
theorem History.endings_nodup (h : History (create self settings fallback) turns e)
    (few : (marks turns).toFinset.card ≤ max 1 settings.dedupCapacity) : ((endings turns).map Prod.fst).Nodup :=
  (List.nodup_append'.mp (h.marks_perm.nodup (h.spaced.nodup_of_card few))).1

/-- Nor is a failure forgotten. -/
theorem History.not_outlived (h : History (create self settings fallback) turns e)
    (few : (marks turns).toFinset.card ≤ max 1 settings.dedupCapacity) :
    ¬ExecutedWindow.Outlived (max 1 settings.dedupCapacity) (failures turns) id := by
  rintro ⟨before, since, split, absent, many⟩
  have marked : (failures turns).toFinset ⊆ (marks turns).toFinset := by
    intro x hx
    have failed := h.mem_failures.mp (List.mem_toFinset.mp hx)
    exact List.mem_toFinset.mpr (h.marks_perm.mem_iff.mpr (List.mem_append_left _ (List.mem_map.mpr ⟨_, failed, rfl⟩)))
  have more : since.toFinset.cons id (by simpa using absent) ⊆ (failures turns).toFinset := by
    intro x hx
    rw [split]
    rcases Finset.mem_cons.mp hx with rfl | later
    · simp
    · simp [List.mem_toFinset.mp later]
  have card := Finset.card_le_card (more.trans marked)
  rw [Finset.card_cons] at card
  omega

end Histories

/-! ## Answers -/

theorem promised_inj {id : ProposalId} {ok ok' : Bool} : promised id ok = promised id ok' ↔ ok = ok' := by
  cases ok <;> cases ok' <;> simp [promised]

theorem apply_of_contains {e : Engine κ} {id : ProposalId} (known : e.ledger.executed.contains id = true)
    (c : Surroundings) (caller : κ) (action : String) (params : Json) :
    e.apply c id action params (.direct caller) =
      (e.countDuplicate, [.applied caller (promised id (!e.ledger.failed.contains id))]) := by
  simp only [apply, Ledger.start_of_contains known, settle, Ledger.earlier]
  cases e.ledger.failed.contains id <;> rfl

/-- A call for an id that is remembered as executed, while no application of it is under way, is
counted as a duplicate and changes nothing else. It is answered by what the latest application of
the id came to, except where that went well and an earlier failure is still remembered, or where it
failed and the failure has been forgotten. Neither happens while no more ids are marked than the
window holds. -/
theorem duplicate_misanswered_iff {self : AgentId} {settings : ConsensusSettings} {fallback : Bool}
    {turns : List (Turn κ)} {e : Engine κ} (h : History (create self settings fallback) turns e) (id : ProposalId)
    (known : e.ledger.executed.contains id = true) (idle : ∀ a ∈ e.applications, a.id ≠ id) (c : Surroundings)
    (caller : κ) (action : String) (params : Json) :
    ∃ said ok, e.step c (.apply caller id action params) = (e.countDuplicate, [.applied caller (promised id said)]) ∧
      latest? turns id = some ok ∧
      (promised id said ≠ promised id ok ↔
        if ok then (id, false) ∈ endings turns ∧
            ¬ExecutedWindow.Outlived (max 1 settings.dedupCapacity) (failures turns) id
          else ExecutedWindow.Outlived (max 1 settings.dedupCapacity) (failures turns) id) ∧
      ((marks turns).toFinset.card ≤ max 1 settings.dedupCapacity → promised id said = promised id ok) := by
  obtain ⟨ok, latest⟩ := h.latest known idle
  have ended := mem_endings_of_latest? latest
  have forgotten : e.ledger.failed.contains id = false ↔ (id, false) ∉ endings turns ∨
      ExecutedWindow.Outlived (max 1 settings.dedupCapacity) (failures turns) id := by
    rw [← h.mem_failures]
    exact h.failed_iff
  have misanswered : promised id (!e.ledger.failed.contains id) ≠ promised id ok ↔
      if ok then (id, false) ∈ endings turns ∧
          ¬ExecutedWindow.Outlived (max 1 settings.dedupCapacity) (failures turns) id
        else ExecutedWindow.Outlived (max 1 settings.dedupCapacity) (failures turns) id := by
    rw [ne_eq, promised_inj]
    cases ok with
    | true =>
      rw [Bool.not_eq_true', forgotten]
      simp
    | false =>
      rw [Bool.not_eq_false', Bool.not_eq_true, forgotten]
      simp [ended]
  refine ⟨_, ok, apply_of_contains known c caller action params, latest, misanswered, fun few => ?_⟩
  by_contra wrong
  have cause := misanswered.mp wrong
  cases ok with
  | true =>
    have same := List.inj_on_of_nodup_map (h.endings_nodup few) ended cause.1 rfl
    cases same
  | false => exact h.not_outlived few cause

/-- With a window of one id, the first of two ids fails and is applied again after the second. Its
failure is remembered though it went well at last. -/
theorem duplicate_misanswered_stale :
    ∃ turns e, History (create "A" { dedupCapacity := 1 } true : Engine Nat) turns e ∧ e.applications.isEmpty = true ∧
      latest? turns (.ofNat 1) = some true ∧
      returns (e.step alone (.apply 3 (.ofNat 1) "noop" .null)).2 = [(3, promised (.ofNat 1) false)] ∧
      (.ofNat 1, false) ∈ endings turns := by
  have origin : History (create "A" { dedupCapacity := 1 } true : Engine Nat) [] _ := .start
  have failed := (origin.step alone (.apply 0 (.ofNat 1) "noop" .null)).step alone
    (.executed 0 (.error (.actuator "noop")))
  have evicted := (failed.step alone (.apply 1 (.ofNat 2) "noop" .null)).step alone (.executed 1 (.ok ()))
  have again := (evicted.step alone (.apply 2 (.ofNat 1) "noop" .null)).step alone (.executed 2 (.ok ()))
  obtain ⟨said, ok, answered, latest, wrong, -⟩ :=
    duplicate_misanswered_iff again (.ofNat 1) (by decide) (by decide) alone 3 "noop" .null
  cases ok with
  | false => exact absurd latest (by decide)
  | true =>
    cases said with
    | true => exact absurd (congrArg (fun s => (returns s.2).map (·.2.toOption)) answered) (by decide +kernel)
    | false =>
      have cause := wrong.mp (by simp [promised])
      exact ⟨_, _, again, by decide, latest, congrArg (returns ·.2) answered, cause.1⟩

/-- With a window of two ids, the second failure of the first id is not noted, as the first failure
still is; another failure later the id is taken for applied. -/
theorem duplicate_misanswered_forgotten :
    ∃ turns e, History (create "A" { dedupCapacity := 2 } true : Engine Nat) turns e ∧ e.applications.isEmpty = true ∧
      latest? turns (.ofNat 1) = some false ∧
      (returns (e.step alone (.apply 5 (.ofNat 1) "noop" .null)).2).map (·.2.toOption) = [some false] := by
  have origin : History (create "A" { dedupCapacity := 2 } true : Engine Nat) [] _ := .start
  let fails (ticket : Nat) : Input Nat := .executed ticket (.error (.actuator "noop"))
  have two := (((origin.step alone (.apply 0 (.ofNat 1) "noop" .null)).step alone (fails 0)).step alone
    (.apply 1 (.ofNat 2) "noop" .null)).step alone (fails 1)
  have evicted := (two.step alone (.apply 2 (.ofNat 3) "noop" .null)).step alone (.executed 2 (.ok ()))
  have again := (evicted.step alone (.apply 3 (.ofNat 1) "noop" .null)).step alone (fails 3)
  have forgotten := (again.step alone (.apply 4 (.ofNat 4) "noop" .null)).step alone (fails 4)
  exact ⟨_, _, forgotten, by decide +kernel, by decide +kernel, by decide +kernel⟩

end Engine

end FleetCoordination
