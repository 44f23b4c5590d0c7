import FleetCoordination.Proofs.Swarm.Forgery
/-!
# Approvals among faulty agents

An approval rests on the honest agents that granted it and on those that faulty agents
named in their votes. So all of a quorum but the share of the faulty agents is sincere if
the faulty ones name no honest agent that has not granted itself, and one that does so
breaks the bound.
-/
namespace FleetCoordination.Swarm
open Engine
variable {κ : Type} {faulty : AgentId → Prop} {w : Swarm κ} {leader : AgentId}

/-- An approval rests on sincere grants and on agents that faulty agents named in their
votes; so on sincere grants of all but the faulty agents of a quorum, unless some of those
named are honest and have not granted themselves. -/
theorem approval_among_faulty [DecidablePred faulty] (h : w.Reachable faulty) (honest : ¬faulty leader) {t : Turn κ}
    (ht : t ∈ w.pasts leader) {caller : κ} {result : ProposalResult} (told : .submitted caller (.ok result) ∈ t.outputs)
    (approved : result.outcome = .approved) :
    ∃ s ∈ w.pasts leader, ∃ p, s.input = .submit caller p ∧ p.id = result.id ∧ result.quorum = needed s p ∧
      (∃ named ⊆ electorate s,
        (∀ v ∈ named, v ≠ leader ∧ w.Named faulty result.id v ∧ ¬w.Sincere faulty leader result.id v) ∧
        w.Honestly faulty leader result.id (electorate s) (result.quorum - named.card)) ∧
      ((∀ v ∈ electorate s, w.Named faulty result.id v → faulty v ∨ w.Granted leader result.id v) →
        w.Honestly faulty leader result.id (electorate s)
          (result.quorum - ((electorate s).filter faulty).card)) := by
  have authentic := h.authentic
  obtain ⟨settings, fallback, past⟩ := authentic.histories leader honest
  obtain ⟨p, b, same, ⟨s, hs, submitted, eligible, opened⟩, quorum, supporters, enough, grants⟩ :=
    past.polls.2 t ht _ told approved
  have among v (hv : v ∈ supporters) : v ∈ electorate s ∧ Grant leader (w.pasts leader) result.id v :=
    ⟨(mem_opening s caller p).mp (eligible ▸ (grants v hv).1), (grants v hv).2⟩
  obtain ⟨named, sub, others, granters, within, many, granted⟩ := authentic.covered honest (quorum ▸ enough) among
  refine ⟨s, hs, p, submitted, same, ?_, ⟨named, sub, others, granters, within, many, granted⟩, fun trusty => ?_⟩
  · rw [quorum, opened, quorum_opening]
  · have few : named.card ≤ ((electorate s).filter faulty).card := by
      refine Finset.card_le_card fun v hv => Finset.mem_filter.mpr ⟨sub hv, ?_⟩
      obtain ⟨-, called, insincere⟩ := others v hv
      by_contra honest
      exact insincere ⟨honest, (trusty v (sub hv) called).resolve_left honest⟩
    exact ⟨granters, within, by omega, granted⟩

def motion : Proposal := { id := .ofNat 1, action := "noop", params := .null, timeout := 1000 }

/-- A leader with one peer submits a proposal. -/
def moved : Turn Unit :=
  ⟨create "A" {} true, { leadership := .fixed "A" (some "A") 1, alive := ["B"] }, .submit () motion⟩

theorem promising_moved : Promising moved motion where
  free := by decide
  leads := by decide
  present := by decide +kernel
  lasts := by decide
  handed := by decide

theorem electorate_moved : electorate moved = {"A", "B"} := by decide +kernel

/-- If all but the leader are faulty, the bound leaves the leader's own grant. -/
theorem approval_among_faulty_peers : ∃ (w : Swarm Unit) (t : Turn Unit) (result : ProposalResult),
    w.Reachable (· ≠ "A") ∧ t ∈ w.pasts "A" ∧ .submitted () (.ok result) ∈ t.outputs ∧ result.outcome = .approved ∧
      ∃ s ∈ w.pasts "A", w.Honestly (· ≠ "A") "A" result.id (electorate s)
        (result.quorum - ((electorate s).filter (· ≠ "A")).card) := by
  obtain ⟨w, reached, -, ⟨t, ht, result, told, approved, same, -⟩, named, -⟩ :=
    approved_by_forgery (· ≠ "A") (f := "B") (by simp) (by decide) (s := moved) rfl rfl promising_moved
      (by rw [electorate_moved]; decide)
  obtain ⟨s, hs, _, _, _, _, _, honestly⟩ := approval_among_faulty reached (by simp) ht told approved
  exact ⟨w, t, result, reached, ht, told, approved, s, hs, honestly fun v _ called => .inl (named v (same ▸ called))⟩

/-- An outsider is the only faulty agent, and too few honest ones have granted. -/
theorem forged_approval : ∃ (w : Swarm Unit) (t : Turn Unit) (result : ProposalResult), w.Reachable (· = "X") ∧
    moved ∈ w.pasts "A" ∧ t ∈ w.pasts "A" ∧ .submitted () (.ok result) ∈ t.outputs ∧ result.outcome = .approved ∧
    ((electorate moved).filter (· = "X")).card ≤ Quorum.maxFaulty (electorate moved).card ∧
    ¬w.Honestly (· = "X") "A" motion.id (electorate moved)
      (result.quorum - ((electorate moved).filter (· = "X")).card) := by
  have none : ((electorate moved).filter (· = "X")).card = 0 := by rw [electorate_moved]; decide
  obtain ⟨w, reached, submitted, ⟨t, ht, result, told, approved, -, quorum⟩, broken⟩ :=
    exists_forged_approval (· = "X") (f := "X") (by decide) rfl (s := moved) rfl rfl promising_moved
      (by rw [none]; exact Quorum.one_le_size ..) (by rw [none, electorate_moved]; decide)
  exact ⟨w, t, result, reached, submitted, ht, told, approved, by rw [none]; exact Nat.zero_le _, quorum ▸ broken⟩

end FleetCoordination.Swarm
