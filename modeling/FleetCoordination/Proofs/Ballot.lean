import Mathlib.Data.Finset.Card
import Mathlib.Data.List.Nodup
import FleetCoordination.Ballot
/-!
# What a ballot holds

Each voter votes once and is eligible, so an approval rests on as many grants of different
agents as the quorum asks for.
-/
namespace FleetCoordination.Ballot
variable {b : Ballot} {voter : AgentId} {granted : Bool}

def voters (b : Ballot) : List AgentId := b.votes.map (·.1)

/-- The agents that have voted for the proposal. -/
def supporters (b : Ballot) : Finset AgentId := ((b.votes.filter (·.2)).map (·.1)).toFinset

theorem mem_supporters : voter ∈ b.supporters ↔ (voter, true) ∈ b.votes := by
  simp [supporters]

theorem vote?_eq_none : b.vote? voter = none ↔ voter ∉ b.voters := by
  simp only [vote?, voters, List.lookup_eq_none_iff, List.mem_map, bne_iff_ne]
  grind

/-- A vote is taken when its voter is eligible and has not voted before. -/
theorem record_cases (b : Ballot) (voter : AgentId) (granted : Bool) :
    b.record voter granted = b ∨
      (voter ∈ b.eligible ∧ voter ∉ b.voters ∧
        b.record voter granted = { b with votes := b.votes ++ [(voter, granted)] }) := by
  by_cases may : voter ∈ b.eligible
  · cases earlier : b.vote? voter with
    | none => exact .inr ⟨may, vote?_eq_none.mp earlier, by simp [record, judge, may, earlier]⟩
    | some g =>
      by_cases same : g = granted
      · exact .inl (by simp [record, judge, may, earlier, same])
      · exact .inl (by simp [record, judge, may, earlier, same])
  · exact .inl (by simp [record, judge, may])

theorem record_of_new (may : voter ∈ b.eligible) (new : voter ∉ b.voters) (granted : Bool) :
    b.record voter granted = { b with votes := b.votes ++ [(voter, granted)] } := by
  simp [record, judge, may, vote?_eq_none.mpr new]

/-- Whether each voter is eligible and has voted once. -/
structure Proper (b : Ballot) : Prop where
  once : b.voters.Nodup
  eligible : ∀ voter ∈ b.voters, voter ∈ b.eligible

theorem Proper.record (h : b.Proper) (voter : AgentId) (granted : Bool) : (b.record voter granted).Proper := by
  obtain same | ⟨may, new, taken⟩ := b.record_cases voter granted
  · rw [same]
    exact h
  · have voters : (b.record voter granted).voters = b.voters ++ [voter] := by simp [taken, Ballot.voters]
    refine ⟨?_, fun v hv => ?_⟩
    · rw [voters, List.nodup_append]
      refine ⟨h.once, List.nodup_singleton voter, fun v hv v' hv' e => new ?_⟩
      rwa [← List.mem_singleton.mp hv', ← e]
    · rw [eligible_record]
      rcases List.mem_append.mp (voters ▸ hv) with old | last
      · exact h.eligible v old
      · rwa [List.mem_singleton.mp last]

theorem Proper.grants_eq (h : b.Proper) : b.grants = b.supporters.card := by
  have once : ((b.votes.filter (·.2)).map (·.1)).Nodup := h.once.sublist (List.filter_sublist.map _)
  rw [supporters, List.toFinset_card_of_nodup once, List.length_map, grants, List.countP_eq_length_filter]

theorem grants_record (may : voter ∈ b.eligible) (new : voter ∉ b.voters) :
    (b.record voter true).grants = b.grants + 1 := by
  simp [record_of_new may new, grants]

theorem length_votes_record (may : voter ∈ b.eligible) (new : voter ∉ b.voters) (granted : Bool) :
    (b.record voter granted).votes.length = b.votes.length + 1 := by
  simp [record_of_new may new]

theorem mem_voters_record {other : AgentId} (h : other ∈ (b.record voter granted).voters) :
    other ∈ b.voters ∨ other = voter := by
  obtain same | ⟨-, -, taken⟩ := b.record_cases voter granted
  · exact .inl (same ▸ h)
  · simpa [taken, voters] using h

theorem quorum_of_approved (h : b.status = .approved) : b.quorum ≤ b.grants := by
  unfold status at h
  split at h
  · assumption
  · split at h <;> cases h

theorem approved_of_quorum (h : b.quorum ≤ b.grants) : b.status = .approved := if_pos h

theorem pending_of_open (few : b.grants < b.quorum) (enough : b.quorum ≤ b.grants + b.outstanding) :
    b.status = .pending := by
  rw [status, if_neg (Nat.not_le.mpr few), if_neg (Nat.not_lt.mpr enough)]

end FleetCoordination.Ballot
