import FleetCoordination.Proofs.Engine.History
/-!
# Early acknowledgements

A delivery of an id that is remembered as executed is acknowledged at once: as applied,
unless the id is remembered as failed. So it is acknowledged too early while the executor
has not ended the first application, and wrongly once its failure is forgotten.
-/
namespace FleetCoordination.Engine
variable {κ : Type}

/-- Whether a turn acknowledges an id as applied though no application of it has been
completed before. -/
def Premature (past : List (Turn κ)) (t : Turn κ) (id : ProposalId) : Prop :=
  ∃ earlier a later, t.reports = earlier ++ .acknowledged a :: later ∧ a.id = id ∧ a.applied = true ∧
    .committed id ∉ told past ++ earlier

/-- Whether a turn is a delivery of the known leader that is answered from memory. -/
def Turn.Redelivers (t : Turn κ) (id : ProposalId) : Prop :=
  ∃ sender m, t.input = .delivery sender m ∧ m.id = id ∧ sender ≠ t.before.self ∧
    accepts t.surroundings.leadership sender m.term = true ∧ t.surroundings.bus = none ∧
    t.before.ledger.executed.contains id = true

section Entry
variable {c : Surroundings} {asked : ProposalId → Purpose κ → Prop} {b b' : Books κ} {id : ProposalId}
  {purpose : Purpose κ} {applied : Bool} {a : ActionAck} {reports earlier later : List Report}

theorem mem_answer {self : AgentId} (h : .acknowledged a ∈ answer self c id applied purpose) :
    (∃ sender, purpose = .delivery sender) ∧ c.bus = none ∧ a = { id, agent := self, applied } := by
  cases purpose with
  | delivery sender =>
    simp only [answer] at h
    split at h
    · next free => exact ⟨⟨sender, rfl⟩, by simpa using free, by simpa using h⟩
    · simp at h
  | commit | propagation | approval | direct => simp [answer] at h

/-- What stands before an acknowledgement that follows a commit. -/
theorem committed_before {quiet answers : List Report} (silent : ∀ a, .acknowledged a ∉ quiet)
    (split : quiet ++ .committed id :: answers = earlier ++ .acknowledged a :: later) :
    .committed id ∈ earlier ∧ .acknowledged a ∈ answers := by
  induction quiet generalizing earlier with
  | nil =>
    cases earlier with
    | nil => simp at split
    | cons r earlier =>
      obtain ⟨rfl, rest⟩ := List.cons.inj split
      exact ⟨List.mem_cons_self, by simp [show answers = _ from rest]⟩
  | cons r quiet ih =>
    cases earlier with
    | nil =>
      obtain ⟨rfl, -⟩ := List.cons.inj split
      exact (silent a List.mem_cons_self).elim
    | cons r' earlier =>
      obtain ⟨-, rest⟩ := List.cons.inj split
      obtain ⟨before, after⟩ := ih (fun a ha => silent a (List.mem_cons_of_mem r ha)) rest
      exact ⟨List.mem_cons_of_mem r' before, after⟩

/-- An acknowledgement of an entry follows a commit of its id, or answers from memory. -/
theorem Entry.acknowledged (entry : Entry c asked b reports b') (split : reports = earlier ++ .acknowledged a :: later)
    (yes : a.applied = true) :
    .committed a.id ∈ earlier ∨
      (∃ sender, asked a.id (.delivery sender)) ∧ c.bus = none ∧ b.ledger.executed.contains a.id = true ∧
        b.ledger.failed.contains a.id = false := by
  have told : .acknowledged a ∈ reports := by simp [split]
  cases entry with
  | idle | handed => simp at told
  | repeated id purpose why known =>
    obtain ⟨⟨sender, rfl⟩, free, rfl⟩ := mem_answer told
    exact .inr ⟨⟨sender, why⟩, free, known, by simpa using yes⟩
  | reassigned id changes purpose =>
    obtain ⟨before, answered⟩ := committed_before (by simp) split
    obtain ⟨-, -, rfl⟩ := mem_answer answered
    exact .inl before
  | succeeded a' =>
    have silent (a : ActionAck) : .acknowledged a ∉ ([] : List Report) := by simp
    obtain ⟨before, answered⟩ := committed_before silent split
    obtain ⟨-, -, rfl⟩ := mem_answer answered
    exact .inl before
  | refused | failed =>
    obtain ⟨-, -, rfl⟩ := mem_answer told
    cases yes

end Entry

section History
variable {self : AgentId} {settings : ConsensusSettings} {fallback : Bool} {turns : List (Turn κ)} {e : Engine κ}
  {t : Turn κ} {id : ProposalId}

theorem Turn.Redelivers.reports (h : t.Redelivers id) :
    t.reports = [.acknowledged { id, agent := t.before.self, applied := !t.before.ledger.failed.contains id }] := by
  obtain ⟨sender, m, delivered, rfl, other, accepted, free, known⟩ := h
  have outputs : t.reports = Engine.reports (t.before.delivery t.surroundings sender m).2 := by
    simp only [Turn.reports, Turn.outputs, delivered, step]
  rw [outputs, delivery, if_neg other, if_pos accepted, apply]
  simp only [Ledger.start_of_contains known, reports_settle, isOk_earlier]
  simp [answer, free, countDuplicate]

theorem Premature.redelivers (early : Premature turns t id) :
    t.Redelivers id ∧ t.before.ledger.failed.contains id = false := by
  obtain ⟨earlier, a, later, split, rfl, yes, uncommitted⟩ := early
  obtain committed | ⟨⟨sender, other, m, delivered, accepted, same⟩, free, known, unfailed⟩ :=
    t.entry.acknowledged split yes
  · exact (uncommitted (List.mem_append_right _ committed)).elim
  · exact ⟨⟨sender, m, delivered, same, other, accepted, free, known⟩, unfailed⟩

theorem History.failed_iff (h : History (create self settings fallback) turns e) :
    e.ledger.failed.contains id = false ↔
      id ∉ failures turns ∨ ExecutedWindow.Outlived (max 1 settings.dedupCapacity) (failures turns) id := by
  have kept : e.ledger.failed.Remembers (failures turns) := h.kept.failed
  have capacity : e.ledger.failed.capacity = max 1 settings.dedupCapacity := h.capacities.2
  rw [← capacity, Bool.eq_false_iff, ne_eq, ExecutedWindow.contains_iff_mem, kept.ids]
  constructor
  · intro gone
    by_cases failed : id ∈ failures turns
    · exact .inr (kept.spaced.outlived failed gone)
    · exact .inl failed
  · rintro (never | outlived)
    · exact fun held => never ((rtake_suffix ..).subset held)
    · exact outlived.gone

end History

/-- An id is acknowledged as applied without a completed application just when the known
leader delivers it again while it is remembered as executed, and either the executor has
its first application still, or the application failed and that was forgotten. -/
theorem premature_iff {self : AgentId} {settings : ConsensusSettings} {fallback : Bool} {turns : List (Turn κ)}
    {e : Engine κ} (h : History (create self settings fallback) turns e) (c : Surroundings) (i : Input κ)
    (id : ProposalId) :
    Premature turns ⟨e, c, i⟩ id ↔
      Turn.Redelivers ⟨e, c, i⟩ id ∧ .committed id ∉ told turns ∧
        ((id ∉ failures turns ∧ ∃ a ∈ e.applications, a.id = id) ∨
          ExecutedWindow.Outlived (max 1 settings.dedupCapacity) (failures turns) id) := by
  constructor
  · intro early
    obtain ⟨redelivers, unfailed⟩ := early.redelivers
    obtain ⟨earlier, _, _, _, _, _, uncommitted⟩ := early
    have untold : .committed id ∉ told turns := fun old => uncommitted (List.mem_append_left earlier old)
    refine ⟨redelivers, untold, ?_⟩
    obtain never | outlived := h.failed_iff.mp unfailed
    · obtain ⟨_, _, _, _, _, _, _, known⟩ := redelivers
      obtain handed | committed | failed := h.kept.accounts id known
      · exact .inl ⟨never, handed⟩
      · exact (untold committed).elim
      · exact (never failed).elim
    · exact .inr outlived
  · rintro ⟨redelivers, untold, open_⟩
    have unfailed : e.ledger.failed.contains id = false := h.failed_iff.mpr (open_.imp_left And.left)
    exact ⟨[], _, [], redelivers.reports, rfl, by simp [unfailed], by simpa using untold⟩

def follower : Surroundings := { leadership := .fixed "B" (some "A") 1, alive := ["A"] }

/-- A delivery of an action for the executor under an id. -/
def delivered (n : Nat) : Input Unit := .delivery "A" { id := .ofNat n, action := "noop", params := .null, term := 1 }

theorem premature_while_applying : ∃ t e, History (create "B" {} true : Engine Unit) [t] e ∧
    Premature [t] ⟨e, follower, delivered 1⟩ (.ofNat 1) := by
  have origin : History (create "B" {} true : Engine Unit) [] _ := .start
  have handed := origin.step follower (delivered 1)
  refine ⟨_, _, handed, (premature_iff handed follower (delivered 1) (.ofNat 1)).mpr ⟨?_, by decide, .inl ?_⟩⟩
  · exact ⟨"A", _, rfl, rfl, by decide, by decide, rfl, by decide⟩
  · exact ⟨by decide, _, List.mem_cons_self, rfl⟩

/-- With a window of two ids, the second failure of the first id is not noted, as the first
failure still is; two failures of others later the id is taken for applied. -/
theorem premature_after_failure : ∃ turns e, History (create "B" { dedupCapacity := 2 } true : Engine Unit) turns e ∧
    .ofNat 1 ∈ failures turns ∧ e.applications.isEmpty = true ∧
      Premature turns ⟨e, follower, delivered 1⟩ (.ofNat 1) := by
  have origin : History (create "B" { dedupCapacity := 2 } true : Engine Unit) [] _ := .start
  let fails (ticket : Nat) : Input Unit := .executed ticket (.error (.actuator "noop"))
  have two := ((((origin.step follower (delivered 1)).step follower (fails 0)).step follower (delivered 2)).step
    follower (fails 1))
  have evicted := (two.step follower (delivered 3)).step follower (.executed 2 (.ok ()))
  have again := (evicted.step follower (delivered 1)).step follower (fails 3)
  have forgotten := (again.step follower (delivered 4)).step follower (fails 4)
  refine ⟨_, _, forgotten, by decide +kernel, by decide +kernel, [], ?_⟩
  exact ⟨{ id := .ofNat 1, agent := "B", applied := true }, [], by decide +kernel, rfl, rfl, by decide +kernel⟩

end FleetCoordination.Engine
