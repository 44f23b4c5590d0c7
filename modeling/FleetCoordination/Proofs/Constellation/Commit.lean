import FleetCoordination.Proofs.Constellation.Authority
import FleetCoordination.Proofs.Swarm.Approval
/-!
# Commits out of office

A proposer commits in the term in which it submitted, and it was the leader of that term
then. A round outlives the office all the same: the commit is a leader's own, in its own
term, just when the proposer has not stepped down from that term by then.
-/
namespace FleetCoordination.Constellation
open Engine Election
variable {κ : Type} {agents : Finset AgentId} {w : Constellation κ} {a : AgentId}

/-- An agent leads in a term from its election until it steps down. -/
theorem Sound.leads_iff (h : w.Sound agents) (member : a ∈ agents) {c : Surroundings} (sees : w.Sees agents a c)
    (term : Term) : c.leadership.isLeader = true ∧ c.leadership.term = term ↔ w.Elected a term ∧ ¬w.Resigned a term := by
  rw [sees.leadership]
  refine Iff.trans ?_ ((h.elections.orderly.tenure a member).leads term)
  simp only [Leadership.view, Machine.isLeader, decide_eq_true_eq]
  exact Iff.rfl

/-- A commit publishes its approval in the term of the round's submission, which the
proposer has won; the proposer still leads in that term unless it has stepped down from it. -/
theorem commit_in_office_iff (h : w.Reachable agents) (member : a ∈ agents) {c : Surroundings} (sees : w.Sees agents a c)
    {i : Engine.Input κ} {r : Round κ} {o : Outcome} (commits : Turn.Commits ⟨w.engines a, c, i⟩ r o) :
    Chartered (w.pasts a) r ∧ w.Elected a r.term ∧
      messages (Turn.outputs ⟨w.engines a, c, i⟩) = published c (.approval (r.approval o)) ∧
      (c.leadership.isLeader = true ∧ c.leadership.term = (r.approval o).term ↔ ¬w.Resigned a r.term) := by
  have sound := h.sound
  obtain ⟨settings, fallback, past⟩ := sound.histories a
  have chartered := commits.chartered (past.chartered rfl)
  have elected : w.Elected a r.term := by
    obtain ⟨t, ht, -, leads, stamp⟩ := chartered
    exact stamp ▸ (sound.views a t ht).1 leads
  refine ⟨chartered, elected, commits.messages_eq, ?_⟩
  exact (sound.leads_iff member sees r.term).trans (and_iff_right elected)

/-! ## Rounds that outlive the office -/

section Late
variable {s : Turn κ} {p : Proposal}

/-- With the fallback on, a round that its proposer has granted commits when its time is up. -/
theorem outcome_late (caller : κ) {now : Nat} (late : s.surroundings.now + p.timeout ≤ now) :
    ∃ o, (Swarm.begun s caller p true).outcome? true now = some o ∧ o.committed = true := by
  cases status : (Swarm.begun s caller p true).ballot.status with
  | approved => exact ⟨.approved, outcome_of_approved rfl status true now, rfl⟩
  | rejected =>
    have member : s.before.self ∈ s.before.electorate s.surroundings := by simp [Engine.electorate]
    have some_ : 1 ≤ (Swarm.electorate s).card := by
      rw [Swarm.card_electorate]
      exact List.length_pos_of_mem member
    have most : Swarm.needed s p ≤ (Swarm.electorate s).card := Quorum.size_le _ some_
    have least : 1 ≤ Swarm.needed s p := Quorum.one_le_size ..
    have open_ : (Swarm.begun s caller p true).ballot.status ≠ .rejected := by
      simp only [Ballot.status, Ballot.outstanding, Swarm.grants_begun, Swarm.quorum_begun, Swarm.votes_begun,
        Swarm.length_begun, Bool.toNat_true, List.length_singleton]
      split
      · simp
      · rw [if_neg (by omega)]
        simp
    exact (open_ status).elim
  | pending =>
    refine ⟨.fallbackApproved, ?_, rfl⟩
    have undecided : (Swarm.begun s caller p true).decided? = none := by simp [Round.decided?, status]
    have ended : (Swarm.begun s caller p true).deadline ≤ now := late
    simp only [Round.outcome?, undecided, ended]
    rfl

theorem commits_late (caller : κ) (promising : Swarm.Promising s p) (rounds : s.before.rounds = [])
    (fallback : s.before.fallback = true) (capacity : 1 ≤ s.before.ledger.executed.capacity) {c : Surroundings}
    (late : s.surroundings.now + p.timeout ≤ c.now) :
    ∃ o, Turn.Commits ⟨Swarm.called s caller p, c, .evaluated (.proposer p.id) .grant⟩
      (Swarm.begun s caller p true) o := by
  obtain ⟨m, eq⟩ := promising.called_eq caller rounds
  have found : (Swarm.called s caller p).round? p.id = some (s.before.opening s.surroundings caller p).sent := by
    rw [eq]
    exact round_only (r := (s.before.opening s.surroundings caller p).sent) rfl
  have self : (Swarm.called s caller p).self = s.before.self := by rw [eq]
  have moved : (Swarm.called s caller p).advanced? (.evaluated (.proposer p.id) .grant) =
      some (Swarm.begun s caller p true) := by
    simp only [advanced?, found, Option.bind_some, self]
    rfl
  obtain ⟨o, known, committed⟩ := outcome_late (s := s) caller late
  have closes : (Swarm.called s caller p).closing? c (.evaluated (.proposer p.id) .grant) =
      some (Swarm.begun s caller p true, o) := by
    have fallback : (Swarm.called s caller p).fallback = true := by rw [eq, ← fallback]
    simp [closing?, moved, fallback, known]
  have new : s.before.ledger.executed.contains p.id = false := (Bool.or_eq_false_iff.mp promising.free).2
  have ledger : (Swarm.called s caller p).ledger = s.before.ledger := by rw [eq]
  exact ⟨o, Turn.commits_of_new closes committed (ledger ▸ capacity) (ledger ▸ new)⟩

end Late

/-! ## Two agents -/

/-- A leader of two agents submits a proposal. -/
def session : Turn Unit :=
  ⟨create "A" {} true, { leadership := .fixed "A" (some "A") 1, alive := ["A", "B"], now := 4 }, .submit () Swarm.motion⟩

theorem promising_session : Swarm.Promising session Swarm.motion where
  free := by decide
  leads := by decide
  present := by decide +kernel
  lasts := by decide
  handed := by decide

theorem lists_pair : Lists {"A", "B"} ["A", "B"] := ⟨by decide, by simp⟩

/-- The engine of its proposer when its request is out. -/
def session.called : Engine Unit := Swarm.called session () Swarm.motion

/-- The proposer may be in office still when its evaluator comes to a judgement, or its peer
may have stood for the next term in the meantime. -/
theorem exists_session :
    (∃ w : Constellation Unit, w.Reachable {"A", "B"} ∧ w.engines "A" = session.called ∧
      (w.leaderships "A").view = session.surroundings.leadership) ∧
    ∃ w : Constellation Unit, w.Reachable {"A", "B"} ∧ w.engines "A" = session.called ∧
      (w.leaderships "A").view = .fixed "A" none 2 := by
  have lists := lists_pair
  have wins := (((reachable_dawn {"A", "B"}).step (.tick (a := "A") 1 200 (by decide) lists)).step
    (.hear (a := "B") 2 200 (by decide) lists (List.mem_of_getElem? (i := 0) rfl) rfl rfl)).step
    (.hear (a := "A") 3 200 (by decide) lists (List.mem_of_getElem? (i := 1) rfl) rfl rfl)
  have submits := wins.step
    (.turn (a := "A") (i := .submit () Swarm.motion) (by decide) (sees_scene lists 4) rfl)
  have calls := submits.step (.turn (a := "A") (i := .posted (.proposal Swarm.motion.id) (.ok ())) (by decide)
    (sees_scene lists 4) rfl)
  have stands := calls.step (.tick (a := "B") 1500 200 (by decide) lists)
  have yields := stands.step
    (.hear (a := "A") 1501 200 (by decide) lists (List.mem_of_getElem? (i := 4) rfl) rfl rfl)
  exact ⟨⟨_, calls, rfl, rfl⟩, _, yields, rfl, rfl⟩

theorem commits_session {c : Surroundings} (late : 1004 ≤ c.now) : ∃ r o, r.term = 1 ∧
    Turn.Commits ⟨session.called, c, .evaluated (.proposer Swarm.motion.id) .grant⟩ r o := by
  obtain ⟨o, commits⟩ := commits_late (s := session) () promising_session rfl rfl (by decide) late
  exact ⟨_, o, rfl, commits⟩

/-- A leader that nobody has challenged commits in office. -/
theorem commit_in_office_unchallenged : ∃ (w : Constellation Unit) (c : Surroundings) (r : Round Unit) (o : Outcome),
    w.Reachable {"A", "B"} ∧ w.Sees {"A", "B"} "A" c ∧
    Turn.Commits ⟨w.engines "A", c, .evaluated (.proposer Swarm.motion.id) .grant⟩ r o ∧ ¬w.Resigned "A" r.term := by
  obtain ⟨⟨w, reached, engine, view⟩, -⟩ := exists_session
  have sees := sees_scene (w := w) (a := "A") lists_pair 1004
  obtain ⟨r, o, term, commits⟩ := commits_session (c := w.scene "A" ["A", "B"] 1004) (Nat.le_refl _)
  rw [← engine] at commits
  obtain ⟨-, -, -, office⟩ := commit_in_office_iff reached (by decide) sees commits
  have leads : (w.scene "A" ["A", "B"] 1004).leadership = .fixed "A" (some "A") 1 := view
  refine ⟨w, _, r, o, reached, sees, commits, office.mp ?_⟩
  rw [leads]
  exact ⟨rfl, term.symm⟩

/-- A leader that has stepped down commits all the same, under a term that is over. -/
theorem commit_out_of_office : ∃ (w : Constellation Unit) (c : Surroundings) (r : Round Unit) (o : Outcome),
    w.Reachable {"A", "B"} ∧ w.Sees {"A", "B"} "A" c ∧
    Turn.Commits ⟨w.engines "A", c, .evaluated (.proposer Swarm.motion.id) .grant⟩ r o ∧
    c.leadership.isLeader = false ∧ (r.approval o).term < c.leadership.term := by
  obtain ⟨-, w, reached, engine, view⟩ := exists_session
  have sees := sees_scene (w := w) (a := "A") lists_pair 1502
  obtain ⟨r, o, term, commits⟩ := commits_session (c := w.scene "A" ["A", "B"] 1502) (by simp [scene])
  rw [← engine] at commits
  have deposed : (w.scene "A" ["A", "B"] 1502).leadership = .fixed "A" none 2 := view
  refine ⟨w, _, r, o, reached, sees, commits, ?_⟩
  rw [deposed]
  exact ⟨rfl, by simp [Round.approval, term, LeadershipView.fixed]⟩

end FleetCoordination.Constellation
