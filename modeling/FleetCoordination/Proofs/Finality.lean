import FleetCoordination.Proofs.Poll
/-!
# What votes can still change

A ballot stands as the first votes of those that may vote do. More votes can only add to
them: a ballot that is decided stays as it is, and it is rejected just when all the votes
that are left would not approve it.
-/
namespace FleetCoordination

/-! ## First votes -/

namespace Poll
variable {voters : Finset AgentId} {votes votes' : List Vote} {a : AgentId} {granted : Bool}

theorem count_le_append (more : List Vote) : count voters votes granted ≤ count voters (votes ++ more) granted := by
  refine Finset.card_le_card fun a ha => ?_
  obtain ⟨member, first⟩ := Finset.mem_filter.mp ha
  exact Finset.mem_filter.mpr ⟨member, by rw [List.lookup_append, first, Option.some_or]⟩

theorem count_congr (same : ∀ a, votes'.lookup a = votes.lookup a) :
    count voters votes' granted = count voters votes granted :=
  congrArg Finset.card (Finset.filter_congr fun a _ => by rw [same a])

/-- Whether no voter says one thing at one time and another at another. -/
def Consistent (votes : List Vote) : Prop := ∀ v ∈ votes, ∀ w ∈ votes, v.1 = w.1 → v.2 = w.2

theorem Consistent.lookup_eq_some (h : Consistent votes) : votes.lookup a = some granted ↔ (a, granted) ∈ votes := by
  constructor
  · intro first
    obtain ⟨before, after, split, -⟩ := List.lookup_eq_some_iff.mp first
    rw [split]
    exact List.mem_append_right _ List.mem_cons_self
  · intro cast
    cases first : votes.lookup a with
    | none => simpa using List.lookup_eq_none_iff.mp first _ cast
    | some g =>
      obtain ⟨before, after, split, -⟩ := List.lookup_eq_some_iff.mp first
      have held : (a, g) ∈ votes := split ▸ List.mem_append_right _ List.mem_cons_self
      exact congrArg some (h _ held _ cast rfl)

/-- The order of consistent votes does not matter. -/
theorem Consistent.lookup_eq (h : Consistent votes) (same : votes.Perm votes') (a : AgentId) :
    votes'.lookup a = votes.lookup a := by
  have h' : Consistent votes' := fun v hv w hw => h v (same.mem_iff.mpr hv) w (same.mem_iff.mpr hw)
  exact Option.ext fun granted => by rw [h'.lookup_eq_some, h.lookup_eq_some, same.mem_iff]

/-- If all voters that are left grant, none is missing but those that have denied. -/
theorem grants_append_all {agents : List AgentId} (all : ∀ a ∈ voters, a ∈ agents) (votes : List Vote) :
    grants voters (votes ++ agents.map (·, true)) + denies voters votes = voters.card := by
  have grant (a : AgentId) (ha : a ∈ voters) : (agents.map (·, true)).lookup a = some true := by
    have agreed : Consistent (agents.map (·, true)) := by simp [Consistent]
    exact agreed.lookup_eq_some.mpr (List.mem_map_of_mem (all a ha))
  have rest : (voters.filter fun a => (votes ++ agents.map (·, true)).lookup a = some true) =
      voters.filter fun a => ¬votes.lookup a = some false := by
    refine Finset.filter_congr fun a ha => ?_
    rw [List.lookup_append, grant a ha]
    rcases votes.lookup a with _ | _ | _ <;> simp
  rw [grants, denies, count, count, rest, Nat.add_comm]
  exact Finset.card_filter_add_card_filter_not ..

end Poll

/-! ## Runs of a ballot -/

namespace Ballot

/-- The ballot after some votes. -/
def hear (b : Ballot) (votes : List Poll.Vote) : Ballot := votes.foldl (fun b v => b.record v.1 v.2) b

variable {b b' : Ballot} {voters : Finset AgentId} {quorum : Nat} {votes votes' : List Poll.Vote}

theorem hear_append (b : Ballot) (votes more : List Poll.Vote) : b.hear (votes ++ more) = (b.hear votes).hear more :=
  List.foldl_append

theorem holds_open (eligible : List AgentId) (quorum : Nat) :
    (open_ eligible quorum).Holds eligible.toFinset quorum [] := by
  refine ⟨⟨List.nodup_nil, by simp [open_, Ballot.voters]⟩, Text.nodup_sorted eligible, ?_, rfl, fun _ _ => rfl⟩
  ext a
  simp [open_]

/-- Votes of agents that may not vote, or have voted, are of no effect. -/
theorem hear_of_idle {idle : List Poll.Vote} (h : ∀ v ∈ idle, v.1 ∉ b.eligible ∨ v.1 ∈ b.voters) : b.hear idle = b := by
  induction idle with
  | nil => rfl
  | cons v rest ih =>
    obtain ⟨first, later⟩ := List.forall_mem_cons.mp h
    have same : b.record v.1 v.2 = b := by
      obtain same | ⟨may, new, -⟩ := b.record_cases v.1 v.2
      · exact same
      · exact (first.elim (· may) new).elim
    rw [hear, List.foldl_cons, same]
    exact ih later

namespace Holds

theorem hear (h : b.Holds voters quorum votes) (more : List Poll.Vote) :
    (b.hear more).Holds voters quorum (votes ++ more) := by
  induction more using List.reverseRecOn with
  | nil => rwa [List.append_nil]
  | append_singleton more v ih =>
    rw [hear_append, ← List.append_assoc]
    exact ih.record v.1 v.2

/-- Each agent that may vote has granted, denied or not voted. -/
theorem card_eq (h : b.Holds voters quorum votes) : b.grants + b.denies + b.outstanding = voters.card := by
  have cast := b.length_votes
  have most := h.length_votes_le
  rw [outstanding, h.card]
  omega

theorem approved_iff (h : b.Holds voters quorum votes) : b.status = .approved ↔ quorum ≤ Poll.grants voters votes := by
  rw [← h.grants_eq, ← h.quorum]
  exact ⟨quorum_of_approved, approved_of_quorum⟩

theorem rejected_iff (h : b.Holds voters quorum votes) :
    b.status = .rejected ↔ voters.card < quorum + Poll.denies voters votes := by
  have all := h.card_eq
  rw [← h.denies_eq, ← h.quorum]
  unfold status
  split
  · simp only [reduceCtorEq, false_iff]
    omega
  · split
    · simp only [true_iff]
      omega
    · simp only [reduceCtorEq, false_iff]
      omega

theorem approved_hear (h : b.Holds voters quorum votes) (approved : b.status = .approved) (more : List Poll.Vote) :
    (b.hear more).status = .approved := by
  have granted := h.approved_iff.mp approved
  exact (h.hear more).approved_iff.mpr (Nat.le_trans granted (Poll.count_le_append more))

theorem rejected_hear (h : b.Holds voters quorum votes) (rejected : b.status = .rejected) (more : List Poll.Vote) :
    (b.hear more).status = .rejected := by
  have denied := h.rejected_iff.mp rejected
  have kept : Poll.denies voters votes ≤ Poll.denies voters (votes ++ more) := Poll.count_le_append more
  exact (h.hear more).rejected_iff.mpr (by omega)

/-- A ballot that is not rejected is approved once all grant that may vote. -/
theorem exists_approved (h : b.Holds voters quorum votes) (open_ : b.status ≠ .rejected) :
    ∃ more, (b.hear more).status = .approved := by
  -- when all grant at last, only those that have denied are lost
  have left := mt h.rejected_iff.mpr open_
  have may (a : AgentId) (ha : a ∈ voters) : a ∈ b.eligible := List.mem_toFinset.mp (h.eligible ▸ ha)
  have all := Poll.grants_append_all may votes
  exact ⟨b.eligible.map (·, true), (h.hear _).approved_iff.mpr (by omega)⟩

/-- An agent whose vote was heard has voted, or may not. -/
theorem voted (h : b.Holds voters quorum votes) {a : AgentId} (heard : a ∈ votes.map (·.1)) :
    a ∉ b.eligible ∨ a ∈ b.voters := by
  by_cases may : a ∈ b.eligible
  · refine .inr (Decidable.not_not.mp fun new => ?_)
    have none : votes.lookup a = none := by
      rw [← h.first a (h.eligible ▸ List.mem_toFinset.mpr may), vote?_eq_none.mpr new]
    obtain ⟨v, hv, rfl⟩ := List.mem_map.mp heard
    simpa using List.lookup_eq_none_iff.mp none v hv
  · exact .inl may

theorem vote?_eq (h : b.Holds voters quorum votes) (h' : b'.Holds voters quorum votes')
    (same : ∀ a, votes'.lookup a = votes.lookup a) (a : AgentId) : b'.vote? a = b.vote? a := by
  by_cases may : a ∈ voters
  · rw [h'.first a may, h.first a may, same]
  · have mute {b : Ballot} {votes : List Poll.Vote} (h : b.Holds voters quorum votes) : b.vote? a = none :=
      vote?_eq_none.mpr fun cast => may (h.eligible ▸ List.mem_toFinset.mpr (h.proper.eligible a cast))
    rw [mute h', mute h]

theorem agree (h : b.Holds voters quorum votes) (h' : b'.Holds voters quorum votes')
    (same : ∀ a, votes'.lookup a = votes.lookup a) :
    b'.grants = b.grants ∧ b'.denies = b.denies ∧ b'.outstanding = b.outstanding ∧ b'.status = b.status := by
  have grants : b'.grants = b.grants := by rw [h'.grants_eq, h.grants_eq]; exact Poll.count_congr same
  have denies : b'.denies = b.denies := by rw [h'.denies_eq, h.denies_eq]; exact Poll.count_congr same
  have outstanding : b'.outstanding = b.outstanding := by
    have all := h.card_eq
    have all' := h'.card_eq
    omega
  refine ⟨grants, denies, outstanding, ?_⟩
  rw [status, status, grants, outstanding, h.quorum, h'.quorum]

end Holds

/-- A ballot accounts for each agent that may vote, whatever votes it has heard. It is rejected
just when no more votes can approve it, and once it is decided none change that. Votes of agents
that may not vote or have voted before change nothing, whatever comes after them; and if no voter
contradicts itself, the votes come to the same in any order. -/
theorem decisions_exact_and_final (eligible : List AgentId) (quorum : Nat) (votes : List Poll.Vote) :
    let b := (open_ eligible quorum).hear votes
    b.grants + b.denies + b.outstanding = eligible.toFinset.card ∧
      (b.status = .rejected ↔ ∀ more, (b.hear more).status ≠ .approved) ∧
      (b.status ≠ .pending → ∀ more, (b.hear more).status = b.status) ∧
      (∀ idle, (∀ v ∈ idle, v.1 ∉ eligible ∨ v.1 ∈ votes.map (·.1)) → ∀ more, b.hear (idle ++ more) = b.hear more) ∧
      ((∀ v ∈ votes, ∀ w ∈ votes, v.1 = w.1 → v.2 = w.2) → ∀ votes', votes.Perm votes' →
        let b' := (open_ eligible quorum).hear votes'
        b'.grants = b.grants ∧ b'.denies = b.denies ∧ b'.outstanding = b.outstanding ∧ b'.status = b.status ∧
          ∀ a, b'.vote? a = b.vote? a) := by
  intro b
  have holds : b.Holds eligible.toFinset quorum votes := (holds_open eligible quorum).hear votes
  refine ⟨holds.card_eq, ⟨fun rejected more => ?_, fun never => ?_⟩, fun decided more => ?_, fun idle mute more => ?_,
    fun consistent votes' same => ?_⟩
  · rw [holds.rejected_hear rejected more]
    decide
  · refine Decidable.not_not.mp fun open_ => ?_
    obtain ⟨more, approved⟩ := holds.exists_approved open_
    exact never more approved
  · cases status : b.status with
    | pending => exact (decided status).elim
    | approved => exact holds.approved_hear status more
    | rejected => exact holds.rejected_hear status more
  · have still : b.hear idle = b := hear_of_idle fun v hv => by
      rcases mute v hv with out | voted
      · exact .inl fun may => out (List.mem_toFinset.mp (holds.eligible ▸ List.mem_toFinset.mpr may))
      · exact holds.voted voted
    rw [hear_append, still]
  · intro b'
    have holds' : b'.Holds eligible.toFinset quorum votes' := (holds_open eligible quorum).hear votes'
    have first := Poll.Consistent.lookup_eq consistent same
    obtain ⟨grants, denies, outstanding, status⟩ := holds.agree holds' first
    exact ⟨grants, denies, outstanding, status, holds.vote?_eq holds' first⟩

end Ballot

end FleetCoordination
