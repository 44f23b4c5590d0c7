import FleetCoordination.Proofs.Swarm.Run
/-!
# Grants of honest agents

A round takes the name in a vote on trust, and not the name on its envelope. So a grant it
has counted was cast by the agent it names, or by a faulty agent in that name.
-/
namespace FleetCoordination.Swarm
open Engine
variable {κ : Type} {faulty : AgentId → Prop} {w : Swarm κ} {leader voter : AgentId} {id : ProposalId}

/-- Whether an agent has itself granted a leader's proposal: the leader by a judgement of
its own evaluator, others by a vote they have published. -/
def Granted (w : Swarm κ) (leader : AgentId) (id : ProposalId) (voter : AgentId) : Prop :=
  if voter = leader then ∃ t ∈ w.pasts leader, ∃ j, t.input = .evaluated (.proposer id) j ∧ j.granted = true
  else ∃ e ∈ w.bus, e.sender = voter ∧ ∃ v, e.message = .proposalVote v ∧ v.id = id ∧ v.voter = voter ∧ v.granted = true

theorem granted_own :
    w.Granted leader id leader ↔ ∃ t ∈ w.pasts leader, ∃ j, t.input = .evaluated (.proposer id) j ∧ j.granted = true :=
  iff_of_eq (if_pos rfl)

theorem granted_other (other : voter ≠ leader) :
    w.Granted leader id voter ↔ ∃ e ∈ w.bus, e.sender = voter ∧
      ∃ v, e.message = .proposalVote v ∧ v.id = id ∧ v.voter = voter ∧ v.granted = true :=
  iff_of_eq (if_neg other)

/-- Whether an agent is not faulty and has granted a leader's proposal. -/
def Sincere (faulty : AgentId → Prop) (w : Swarm κ) (leader : AgentId) (id : ProposalId) (voter : AgentId) : Prop :=
  ¬faulty voter ∧ w.Granted leader id voter

/-- Whether a faulty agent has published a grant in the name of an agent. -/
def Named (faulty : AgentId → Prop) (w : Swarm κ) (id : ProposalId) (voter : AgentId) : Prop :=
  ∃ e ∈ w.bus, faulty e.sender ∧ ∃ v, e.message = .proposalVote v ∧ v.id = id ∧ v.voter = voter ∧ v.granted = true

/-- Whether at least `n` agents of a set have sincerely granted a leader's proposal. -/
def Honestly (faulty : AgentId → Prop) (w : Swarm κ) (leader : AgentId) (id : ProposalId) (agents : Finset AgentId)
    (n : Nat) : Prop :=
  ∃ granters ⊆ agents, n ≤ granters.card ∧ ∀ v ∈ granters, w.Sincere faulty leader id v

/-- The agents that may vote on a proposal submitted in a turn. -/
def electorate (t : Turn κ) : Finset AgentId := (t.before.electorate t.surroundings).toFinset

theorem card_electorate (t : Turn κ) : (electorate t).card = (t.before.electorate t.surroundings).length :=
  List.toFinset_card_of_nodup (Text.nodup_sorted _)

theorem mem_opening (t : Turn κ) (caller : κ) (p : Proposal) :
    voter ∈ (t.before.opening t.surroundings caller p).ballot.eligible ↔ voter ∈ electorate t := by
  simp [opening, Ballot.open_, electorate]

theorem length_opening (t : Turn κ) (caller : κ) (p : Proposal) :
    (t.before.opening t.surroundings caller p).ballot.eligible.length = (electorate t).card := by
  have same : electorate t = (t.before.opening t.surroundings caller p).ballot.eligible.toFinset := by
    ext v
    rw [List.mem_toFinset, mem_opening]
  rw [same]
  exact (List.toFinset_card_of_nodup (Text.nodup_sorted _)).symm

/-- How many grants a proposal needs that is submitted in a turn. -/
def needed (t : Turn κ) (p : Proposal) : Nat :=
  Quorum.size (t.before.settings.fractionFor p.action) (electorate t).card

theorem quorum_opening (t : Turn κ) (caller : κ) (p : Proposal) :
    (t.before.opening t.surroundings caller p).ballot.quorum = needed t p := by
  rw [needed, card_electorate]
  rfl

/-- A grant that a round has counted is sincere, or cast by a faulty agent. -/
theorem Authentic.granted (h : w.Authentic faulty) (honest : ¬faulty leader)
    (grant : Grant leader (w.pasts leader) id voter) :
    w.Sincere faulty leader id voter ∨ (voter ≠ leader ∧ w.Named faulty id voter) := by
  by_cases own : voter = leader
  · subst own
    exact .inl ⟨honest, granted_own.mpr (grant_own.mp grant)⟩
  · obtain ⟨t, ht, v, vote, same, rfl, yes⟩ := (grant_other own).mp grant
    obtain ⟨e, he, message⟩ := h.heard leader honest t ht v vote
    by_cases corrupt : faulty e.sender
    · exact .inr ⟨own, e, he, corrupt, v, message, same, rfl, yes⟩
    · have signed := h.signed e he corrupt v message
      exact .inl ⟨signed ▸ corrupt, (granted_other own).mpr ⟨e, he, signed.symm, v, message, same, rfl, yes⟩⟩

/-- Grants that make up a quorum are sincere, but for some that faulty agents have cast. -/
theorem Authentic.covered (h : w.Authentic faulty) (honest : ¬faulty leader) {agents supporters : Finset AgentId}
    {quorum : Nat} (enough : quorum ≤ supporters.card)
    (grants : ∀ v ∈ supporters, v ∈ agents ∧ Grant leader (w.pasts leader) id v) :
    ∃ named ⊆ agents,
      (∀ v ∈ named, v ≠ leader ∧ w.Named faulty id v ∧ ¬w.Sincere faulty leader id v) ∧
      Honestly faulty w leader id agents (quorum - named.card) := by
  classical
  let granters := supporters.filter fun v => w.Sincere faulty leader id v
  let named := supporters.filter fun v => ¬w.Sincere faulty leader id v
  have split : granters.card + named.card = supporters.card := Finset.card_filter_add_card_filter_not _
  refine ⟨named, fun v hv => ?_, fun v hv => ?_, granters, fun v hv => ?_, by omega, fun v hv => ?_⟩
  · exact (grants v (Finset.mem_filter.mp hv).1).1
  · obtain ⟨counted, insincere⟩ := Finset.mem_filter.mp hv
    obtain ⟨other, named⟩ := (h.granted honest (grants v counted).2).resolve_left insincere
    exact ⟨other, named, insincere⟩
  · exact (grants v (Finset.mem_filter.mp hv).1).1
  · exact (Finset.mem_filter.mp hv).2

end FleetCoordination.Swarm
