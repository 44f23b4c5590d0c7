import FleetCoordination.Proofs.Election.Coherence
import FleetCoordination.Proofs.ExecutedWindow
/-!
# Who backs a win

A vote counts if its voter is alive when it comes, and it stays counted when the voter is
gone. A win is by a majority of the agents alive then, but the supporters it counts need not
be alive any more: it has a majority of living backers only as long as no more supporters
have lapsed than it has to spare.
-/
namespace FleetCoordination.Election

/-! ## Counted votes -/

/-- Whether an input brings a candidate a vote that it counts: one for its own term, of an
agent that is alive. -/
def Input.Counts (i : Input) (m : Machine) (voter : AgentId) (term : Term) : Prop :=
  m.phase = .candidate ∧ m.term = term ∧ ∃ alive, i = .vote { term, voter } alive ∧ voter ∈ alive

namespace Machine
variable {m : Machine} {now : Nat} {i : Input} {counted : AgentId → Term → Prop}

/-- Whether one of some calls has counted an agent's vote for a term. -/
def Counted (m : Machine) (calls : List Call) (voter : AgentId) (term : Term) : Prop :=
  ∃ before c after, calls = before ++ c :: after ∧ c.input.Counts (m.run before).1 voter term

theorem run_snoc (m : Machine) (calls : List Call) (c : Call) :
    (m.run (calls ++ [c])).1 = ((m.run calls).1.call c.now c.input).1 := by
  induction calls generalizing m with
  | nil => rfl
  | cons c' rest ih => exact ih _

theorem counted_snoc {calls : List Call} {c : Call} {voter : AgentId} {term : Term} :
    m.Counted (calls ++ [c]) voter term ↔
      m.Counted calls voter term ∨ c.input.Counts (m.run calls).1 voter term := by
  constructor
  · rintro ⟨before, c', after, split, counts⟩
    obtain ⟨rfl, rfl, -⟩ | ⟨after, rfl, rfl⟩ := split_of_snoc split
    · exact .inr counts
    · exact .inl ⟨before, c', after, rfl, counts⟩
  · rintro (⟨before, c', after, rfl, counts⟩ | counts)
    · exact ⟨before, c', after ++ [c], by simp, counts⟩
    · exact ⟨calls, c, [], rfl, counts⟩

/-- What ties the supporters of a machine to the votes it has counted, by voter and term. -/
structure Polls (m : Machine) (counted : AgentId → Term → Prop) : Prop where
  current : ∀ voter term, counted voter term → term ≤ m.term
  supporters : m.phase ≠ .follower → ∀ a, a ∈ m.supporters ↔ a = m.self ∨ counted a m.term
  once : m.phase ≠ .follower → m.supporters.Nodup

namespace Polls

theorem create (self : AgentId) (start timeout lease heartbeatInterval : Nat) :
    (Machine.create self start timeout lease heartbeatInterval).Polls fun _ _ => False where
  current _ _ none := none.elim
  supporters free := (free rfl).elim
  once free := (free rfl).elim

theorem of_follower {m' : Machine} (h : m.Polls counted) (follows : m'.phase = .follower) (later : m.term ≤ m'.term) :
    m'.Polls counted where
  current voter term past := Nat.le_trans (h.current voter term past) later
  supporters free := (free follows).elim
  once free := (free follows).elim

theorem candidacy (h : m.Polls counted) (now timeout : Nat) : (m.candidacy now timeout).Polls counted where
  current voter term past := Nat.le_succ_of_le (h.current voter term past)
  supporters _ a := by
    have fresh : ¬counted a (m.term + 1) := fun past => Nat.not_succ_le_self _ (h.current _ _ past)
    simp [Machine.candidacy, fresh]
  once _ := List.nodup_singleton _

/-- A move counts no vote, unless it is of a vote. -/
theorem move {m' : Machine} {outputs : List Output} (h : m.Polls counted) (move : Move now i m outputs m')
    (other : ∀ vote alive, i ≠ .vote vote alive) : m'.Polls counted := by
  cases move with
  | beat => exact ⟨h.current, h.supporters, h.once⟩
  | stand => exact h.candidacy now _
  | win runs => exact ⟨h.current, fun _ => h.supporters (by simp [runs]), fun _ => h.once (by simp [runs])⟩
  | adopt _ higher => exact h.of_follower rfl (Nat.le_of_lt higher)
  | support => exact h.of_follower rfl (Nat.le_refl _)
  | join => exact (other _ _ rfl).elim
  | follow accepted => exact h.of_follower rfl (le_of_accepted accepted)

theorem moves {m' : Machine} {outputs : List Output} (h : m.Polls counted) (moves : Moves now i m outputs m')
    (other : ∀ vote alive, i ≠ .vote vote alive) : m'.Polls counted := by
  induction moves with
  | none => exact h
  | cons move _ ih => exact ih (h.move move other)

theorem mem_addSupporter {a voter : AgentId} :
    a ∈ (m.addSupporter voter).supporters ↔ a ∈ m.supporters ∨ a = voter := by
  unfold addSupporter
  split <;> simp_all

theorem self_addSupporter (m : Machine) (voter : AgentId) : (m.addSupporter voter).self = m.self := by
  unfold addSupporter; split <;> rfl

theorem term_addSupporter (m : Machine) (voter : AgentId) : (m.addSupporter voter).term = m.term := by
  unfold addSupporter; split <;> rfl

theorem nodup_addSupporter (h : m.supporters.Nodup) (voter : AgentId) : (m.addSupporter voter).supporters.Nodup := by
  unfold addSupporter
  split
  · exact h
  · next new => simpa [List.nodup_append, h] using fun a ha => ne_of_mem_of_not_mem ha new

/-- A candidate that hears a vote of its own term, from an agent that is alive, counts it. -/
theorem join (h : m.Polls counted) (runs : m.phase = .candidate) (voter : AgentId) :
    (m.addSupporter voter).Polls fun a term => counted a term ∨ m.term = term ∧ a = voter where
  current a term
    | .inl past => (term_addSupporter m voter).symm ▸ h.current a term past
    | .inr ⟨here, _⟩ => (term_addSupporter m voter).symm ▸ Nat.le_of_eq here.symm
  supporters _ a := by
    rw [mem_addSupporter, h.supporters (by simp [runs]), self_addSupporter, term_addSupporter]
    tauto
  once _ := nodup_addSupporter (h.once (by simp [runs])) voter

theorem winIfMajority (h : m.Polls counted) (runs : m.phase = .candidate) (now : Nat) (alive : List AgentId) :
    (m.winIfMajority now alive).1.Polls counted := by
  unfold Machine.winIfMajority
  split
  · exact ⟨h.current, fun _ => h.supporters (by simp [runs]), fun _ => h.once (by simp [runs])⟩
  · exact h

theorem congr {counted' : AgentId → Term → Prop} (h : m.Polls counted)
    (same : ∀ voter term, counted' voter term ↔ counted voter term) : m.Polls counted' := by
  have eq : counted' = counted := funext fun voter => funext fun term => propext (same voter term)
  rwa [eq]

theorem call (h : m.Polls counted) (now : Nat) (i : Input) :
    (m.call now i).1.Polls fun voter term => counted voter term ∨ i.Counts m voter term := by
  cases i with
  | vote vote alive =>
    simp only [Machine.call, Machine.step, Option.getD_some, onVote]
    split
    · next higher =>
      have adopted : (m.adopt vote.term).1.Polls counted := h.of_follower rfl (Nat.le_of_lt higher)
      refine adopted.congr fun voter term => ?_
      refine or_iff_left ?_
      rintro ⟨-, current, _, same, -⟩
      cases same
      exact Nat.ne_of_lt higher current
    · next notHigher =>
      split
      · next passed =>
        refine h.congr fun voter term => or_iff_left ?_
        rintro ⟨runs, current, _, same, living⟩
        cases same
        simp [runs, current, living] at passed
      · next counts =>
        simp only [not_or, Decidable.not_not, ne_eq] at counts
        obtain ⟨notLower, runs, living⟩ := counts
        have current : m.term = vote.term := Nat.le_antisymm (Nat.not_lt.mp notLower) (Nat.not_lt.mp notHigher)
        have joined := (h.join runs vote.voter).winIfMajority ((m.phase_addSupporter _).trans runs) now alive
        refine joined.congr fun voter term => or_congr_right ⟨?_, ?_⟩
        · rintro ⟨-, here, _, same, -⟩
          cases same
          exact ⟨here, rfl⟩
        · rintro ⟨here, rfl⟩
          exact ⟨runs, here, alive, by rw [← here, current], living⟩
  | tick | voteRequest | heartbeat =>
    refine (h.moves (m.moves_call now _) (by simp)).congr fun voter term => or_iff_left ?_
    rintro ⟨-, -, _, same, -⟩
    cases same

/-- The supporters of a candidate or a leader are itself and the agents whose votes for its term
it has counted. -/
theorem run (origin : Machine) (h : origin.Polls fun _ _ => False) (calls : List Call) :
    (origin.run calls).1.Polls (origin.Counted calls) := by
  induction calls using List.reverseRecOn with
  | nil => exact h.congr fun voter term => iff_of_false (by simp [Counted]) id
  | append_singleton calls c ih =>
    rw [run_snoc]
    exact (ih.call c.now c.input).congr fun voter term => counted_snoc

end Polls
end Machine

/-! ## Backers -/

namespace Machine
variable (m : Machine) (alive : List AgentId)

/-- The supporters that are alive, the machine itself always among them. -/
def backers : Finset AgentId := insert m.self (m.supporters.toFinset.filter (· ∈ alive))

/-- The supporters that are not alive any more. -/
def lapsed : Finset AgentId := m.supporters.toFinset.filter fun a => a ≠ m.self ∧ a ∉ alive

variable {m}

theorem card_backers (once : m.supporters.Nodup) (own : m.self ∈ m.supporters) :
    (m.backers alive).card + (m.lapsed alive).card = m.supporters.length := by
  have apart : Disjoint (m.backers alive) (m.lapsed alive) := by
    rw [Finset.disjoint_left]
    simp only [backers, lapsed, Finset.mem_insert, Finset.mem_filter]
    tauto
  have whole : m.backers alive ∪ m.lapsed alive = m.supporters.toFinset := by
    ext a
    simp only [backers, lapsed, Finset.mem_union, Finset.mem_insert, Finset.mem_filter, List.mem_toFinset]
    by_cases same : a = m.self
    · simp [same, own]
    · tauto
  rw [← Finset.card_union_of_disjoint apart, whole, List.toFinset_card_of_nodup once]

/-- Of enough supporters, enough are alive if no more have lapsed than there are to spare. -/
theorem le_card_backers {least : Nat} (once : m.supporters.Nodup) (own : m.self ∈ m.supporters)
    (enough : least ≤ m.supporters.length) :
    least ≤ (m.backers alive).card ↔ (m.lapsed alive).card ≤ m.supporters.length - least := by
  have parts := card_backers alive once own
  omega

variable {alive}

theorem lapsed_eq_empty (living : ∀ a ∈ m.supporters, a ≠ m.self → a ∈ alive) : m.lapsed alive = ∅ :=
  Finset.filter_eq_empty_iff.mpr fun a ha gone => gone.2 (living a (List.mem_toFinset.mp ha) gone.1)

/-- A machine that wins at a tick wins by itself. -/
theorem lapsed_of_tick {now timeout : Nat} {term : Term} (wins : term ∈ won (m.call now (.tick alive timeout)).2)
    (others : List AgentId) : (m.call now (.tick alive timeout)).1.lapsed others = ∅ := by
  rcases m.call_cases now (.tick alive timeout) with panic | step
  · rw [panic] at wins
    cases wins
  · generalize m.call now (.tick alive timeout) = s at *
    obtain rfl | ⟨-, rfl⟩ | ⟨-, -, rfl⟩ := tick_cases step
    · cases wins
    · cases wins
    · unfold candidate winIfMajority
      split <;> simp [lapsed, win, candidacy]

end Machine

/-- However a machine has come to a win, and whoever was reported alive on the way: it wins by
itself and the agents whose votes it has counted in the term, as many as a majority of those
alive at the win. Living backers make up that majority just if no more supporters have lapsed
than there are above it; so it is with every win at a tick, and where all agents whose votes
were counted are alive still. -/
theorem win_backed_iff (self : AgentId) (start timeout lease heartbeatInterval : Nat) (calls : List Call) (c : Call) :
    let origin := Machine.create self start timeout lease heartbeatInterval
    let m := ((origin.run calls).1.call c.now c.input).1
    let majority := Quorum.majority (m.electorate c.input.alive)
    ∀ term wait, .becameLeader term wait ∈ ((origin.run calls).1.call c.now c.input).2 →
      (m.supporters.Nodup ∧ (∀ a, a ∈ m.supporters ↔ a = self ∨ origin.Counted (calls ++ [c]) a term) ∧
        majority ≤ m.supporters.length) ∧
      (majority ≤ (m.backers c.input.alive).card ↔
        (m.lapsed c.input.alive).card ≤ m.supporters.length - majority) ∧
      ((∃ alive timeout, c.input = .tick alive timeout) ∨
          (∀ a, origin.Counted (calls ++ [c]) a term → a ∈ c.input.alive) →
        majority ≤ (m.backers c.input.alive).card) := by
  intro origin m majority term wait wins
  obtain ⟨leads, rfl, most⟩ := Machine.won_call (mem_won.mpr ⟨wait, wins⟩)
  have most : majority ≤ m.supporters.length := of_decide_eq_true most
  have polls := Machine.Polls.run origin (.create ..) (calls ++ [c])
  rw [origin.run_snoc] at polls
  have free : m.phase ≠ .follower := by simp [m, leads]
  have own : m.self = self := ((origin.run calls).1.self_call c.now c.input).trans (origin.self_run calls)
  have once := polls.once free
  have supporters := polls.supporters free
  have backed := Machine.le_card_backers c.input.alive once ((supporters m.self).mpr (.inl rfl)) most
  refine ⟨⟨once, fun a => own ▸ supporters a, most⟩, backed, fun unlapsed => backed.mpr ?_⟩
  have none : m.lapsed c.input.alive = ∅ := by
    obtain ⟨alive, timeout, ticks⟩ | living := unlapsed
    · simp only [m, ticks] at wins ⊢
      exact Machine.lapsed_of_tick (mem_won.mpr ⟨wait, wins⟩) _
    · exact Machine.lapsed_eq_empty fun a ha other => living a (((supporters a).mp ha).resolve_left other)
  rw [none, Finset.card_empty]
  exact Nat.zero_le _

/-! ## Runs -/

/-- Candidate `A` of five, that has heard the vote of `B` while all five are alive. -/
def polled : List Call :=
  [⟨200, .tick ["A", "B", "C", "D", "E"] 200⟩,
    ⟨210, .vote { term := 1, voter := "B" } ["A", "B", "C", "D", "E"]⟩]

/-- The vote of `C`, with the agents that are alive when it comes. -/
def closingVote (alive : List AgentId) : Call := ⟨220, .vote { term := 1, voter := "C" } alive⟩

/-- Two of five are left, and the candidate wins by three: the supporter that has lapsed is one
to spare. -/
theorem win_backed_iff_spared :
    let m := (((Machine.create "A" 0 200 10000 1000).run polled).1.call 220 (closingVote ["A", "C"]).input).1
    m.supporters = ["A", "B", "C"] ∧ m.lapsed ["A", "C"] = {"B"} ∧
      Quorum.majority (m.electorate ["A", "C"]) ≤ (m.backers ["A", "C"]).card :=
  ⟨rfl, by decide, (win_backed_iff "A" 0 200 10000 1000 polled (closingVote ["A", "C"]) 1 20
    (List.mem_of_getElem? (i := 0) rfl)).2.1.mpr (by decide)⟩

/-- Four of five are left, and the candidate wins by three of which one has lapsed: two are no
majority of four. -/
theorem unbacked_win :
    let before := ((Machine.create "A" 0 200 10000 1000).run polled).1
    let alive := ["A", "C", "D", "E"]
    let after := (before.call 220 (closingVote alive).input).1
    (∀ c ∈ polled ++ [closingVote alive], c.input.alive.Nodup) ∧
      .becameLeader 1 20 ∈ (before.call 220 (closingVote alive).input).2 ∧
      (after.backers alive).card < Quorum.majority (after.electorate alive) :=
  ⟨by decide, List.mem_of_getElem? (i := 0) rfl, by decide⟩

end FleetCoordination.Election
