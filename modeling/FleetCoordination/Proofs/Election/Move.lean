import FleetCoordination.Election
/-!
# Moves of an election machine

A step of a machine is a short sequence of moves, each with its guard. What every move
preserves, every step preserves. A call that ends in a panic makes none.
-/
namespace FleetCoordination.Election

/-- The agents that an input reports alive. -/
def Input.alive : Input → List AgentId
  | .tick alive _ => alive
  | .vote _ alive => alive
  | .voteRequest _ _ => []
  | .heartbeat _ _ => []

/-- The term that an input brings along. -/
def Input.term? : Input → Option Term
  | .tick _ _ => none
  | .voteRequest m _ => some m.term
  | .vote m _ => some m.term
  | .heartbeat m _ => some m.term

namespace Machine

/-- The machine as a new candidate of the next term. -/
def candidacy (m : Machine) (now timeout : Nat) : Machine :=
  { m with
    term := m.term + 1, phase := .candidate, votedFor := some m.self, leader := none,
    supporters := [m.self], deadline := now + timeout,
    candidateSince := some (m.candidateSince.getD now) }

/-- A machine's request for votes in its own term. -/
def plea (m : Machine) (now : Nat) : Output :=
  .broadcast (.voteRequest { term := m.term, candidate := m.self, uptime := m.uptime now })

/-- A new candidate, a winner at once if its own vote is a majority. -/
def candidate (m : Machine) (now : Nat) (alive : List AgentId) (timeout : Nat) : Machine × List Output :=
  (((m.candidacy now timeout).winIfMajority now alive).1,
    (m.candidacy now timeout).plea now :: ((m.candidacy now timeout).winIfMajority now alive).2)

theorem stand_eq (m : Machine) (now : Nat) (alive : List AgentId) (timeout : Nat) :
    m.stand now alive timeout = if m.term < lastTerm then some (m.candidate now alive timeout) else none := rfl

/-- What a call leaves behind. One that ends in a panic has changed nothing and puts nothing out. -/
def call (m : Machine) (now : Nat) (i : Input) : Machine × List Output := (m.step now i).getD (m, [])

theorem call_cases (m : Machine) (now : Nat) (i : Input) :
    m.call now i = (m, []) ∨ m.step now i = some (m.call now i) := by
  unfold call
  cases m.step now i with
  | none => exact .inl rfl
  | some s => exact .inr rfl

section Tick
variable {m : Machine} {now timeout : Nat} {alive : List AgentId} {s : Machine × List Output}

/-- A tick does nothing, beats for a leader or, once the election is due, stands for the next term. -/
theorem tick_cases (h : m.tick now alive timeout = some s) :
    s = (m, []) ∨
    (m.phase = .leader ∧ s = ({ m with nextHeartbeat := now + m.heartbeatInterval }, [m.announcement now])) ∨
    (m.phase ≠ .leader ∧ m.term < lastTerm ∧ s = m.candidate now alive timeout) := by
  unfold tick at h
  split at h
  · next lead =>
    split at h
    · exact .inr (.inl ⟨lead, (Option.some.inj h).symm⟩)
    · exact .inl (Option.some.inj h).symm
  · next free =>
    split at h
    · rw [stand_eq] at h
      split at h
      · next next => exact .inr (.inr ⟨free, next, (Option.some.inj h).symm⟩)
      · cases h
    · exact .inl (Option.some.inj h).symm

theorem tick_of_due (due : m.electionDue now = true) (alive : List AgentId) (timeout : Nat) :
    m.tick now alive timeout = if m.term < lastTerm then some (m.candidate now alive timeout) else none := by
  have free : m.phase ≠ .leader := by
    intro leads
    simp [electionDue, leads] at due
  rw [tick, if_neg free, if_pos due, stand_eq]

end Tick

end Machine

/-- One move of a machine at a time, under an input, with what it puts out. -/
inductive Move (now : Nat) : Input → Machine → List Output → Machine → Prop
  | beat {m : Machine} {alive : List AgentId} {timeout : Nat} (lead : m.phase = .leader) :
      Move now (.tick alive timeout) m [m.announcement now]
        { m with nextHeartbeat := now + m.heartbeatInterval }
  | stand {m : Machine} {alive : List AgentId} {timeout : Nat} (free : m.phase ≠ .leader) (next : m.term < lastTerm) :
      Move now (.tick alive timeout) m [(m.candidacy now timeout).plea now] (m.candidacy now timeout)
  | win {i : Input} {m : Machine} (runs : m.phase = .candidate) (majority : m.hasMajority i.alive) :
      Move now i m (m.win now).2 (m.win now).1
  | adopt {i : Input} {m : Machine} {term : Term} (brought : i.term? = some term) (higher : m.term < term) :
      Move now i m (m.adopt term).2 (m.adopt term).1
  | support {m : Machine} {request : VoteRequest} {timeout : Nat} (current : request.term = m.term)
      (grants : m.grants request now) :
      Move now (.voteRequest request timeout) m (m.support request now timeout).2 (m.support request now timeout).1
  | join {m : Machine} {vote : ElectionVote} {alive : List AgentId} (current : vote.term = m.term)
      (runs : m.phase = .candidate) (counts : vote.voter ∈ alive) :
      Move now (.vote vote alive) m [] (m.addSupporter vote.voter)
  | follow {m : Machine} {beat : Heartbeat} {timeout : Nat} (accepted : m.disposition beat = .accepted) :
      Move now (.heartbeat beat timeout) m (m.follow beat now timeout).2 (m.follow beat now timeout).1

/-- Moves made one after the other, with all that they put out. -/
inductive Moves (now : Nat) (i : Input) : Machine → List Output → Machine → Prop
  | none (m : Machine) : Moves now i m [] m
  | cons {m m' m'' : Machine} {first rest : List Output} (move : Move now i m first m')
      (moves : Moves now i m' rest m'') : Moves now i m (first ++ rest) m''

namespace Moves
variable {now : Nat} {i : Input} {m m' m'' : Machine} {first rest : List Output}

theorem single (h : Move now i m first m') : Moves now i m first m' := by
  simpa using cons h (none m')

theorem trans (h : Moves now i m first m') (h' : Moves now i m' rest m'') :
    Moves now i m (first ++ rest) m'' := by
  induction h with
  | none => simpa using h'
  | cons move _ ih => simpa only [List.append_assoc] using cons move (ih h')

end Moves

namespace Machine

theorem moves_winIfMajority {now : Nat} {i : Input} {m : Machine} (runs : m.phase = .candidate) :
    Moves now i m (m.winIfMajority now i.alive).2 (m.winIfMajority now i.alive).1 := by
  unfold winIfMajority
  split
  · next h => exact .single (.win runs h)
  · exact .none m

theorem moves_catchUp {now : Nat} {i : Input} (m : Machine) {term : Term} (brought : i.term? = some term) :
    Moves now i m (m.catchUp term).2 (m.catchUp term).1 := by
  unfold catchUp
  split
  · next h => exact .single (.adopt brought h)
  · exact .none m

theorem term_catchUp {m : Machine} {term : Term} (h : m.term ≤ term) : (m.catchUp term).1.term = term := by
  unfold catchUp adopt
  split
  · rfl
  · next h' => exact Nat.le_antisymm h (Nat.not_lt.mp h')

theorem phase_addSupporter (m : Machine) (voter : AgentId) : (m.addSupporter voter).phase = m.phase := by
  unfold addSupporter; split <;> rfl

theorem moves_tick {m : Machine} {now : Nat} {alive : List AgentId} {timeout : Nat} {s : Machine × List Output}
    (h : m.tick now alive timeout = some s) : Moves now (.tick alive timeout) m s.2 s.1 := by
  obtain rfl | ⟨lead, rfl⟩ | ⟨free, next, rfl⟩ := tick_cases h
  · exact .none m
  · exact .single (.beat lead)
  · exact .cons (.stand free next) (moves_winIfMajority rfl)

theorem moves_onVoteRequest (m : Machine) (request : VoteRequest) (now timeout : Nat) :
    Moves now (.voteRequest request timeout) m (m.onVoteRequest request now timeout).2
      (m.onVoteRequest request now timeout).1 := by
  unfold onVoteRequest
  split
  · exact .none m
  · next h =>
    have caught : Moves now (.voteRequest request timeout) m _ _ := moves_catchUp m rfl
    dsimp only
    split
    · next grants =>
      exact caught.trans (.single (.support (term_catchUp (Nat.not_lt.mp h)).symm grants))
    · exact caught

theorem moves_onVote (m : Machine) (vote : ElectionVote) (now : Nat) (alive : List AgentId) :
    Moves now (.vote vote alive) m (m.onVote vote now alive).2 (m.onVote vote now alive).1 := by
  unfold onVote
  split
  · next higher => exact .single (.adopt rfl higher)
  · next notHigher =>
    split
    · exact .none m
    · next h =>
      obtain ⟨notLower, runs, counts⟩ : ¬vote.term < m.term ∧ m.phase = .candidate ∧ vote.voter ∈ alive := by
        simpa only [not_or, Decidable.not_not, ne_eq] using h
      have current : vote.term = m.term := Nat.le_antisymm (Nat.not_lt.mp notHigher) (Nat.not_lt.mp notLower)
      exact .cons (.join current runs counts)
        (moves_winIfMajority (i := .vote vote alive) ((m.phase_addSupporter _).trans runs))

theorem moves_onHeartbeat (m : Machine) (beat : Heartbeat) (now timeout : Nat) :
    Moves now (.heartbeat beat timeout) m (m.onHeartbeat beat now timeout).2 (m.onHeartbeat beat now timeout).1 := by
  unfold onHeartbeat
  split
  · next accepted => exact .single (.follow accepted)
  · exact .none m
  · exact .none m

theorem moves_step {m : Machine} {now : Nat} {i : Input} {s : Machine × List Output} (h : m.step now i = some s) :
    Moves now i m s.2 s.1 := by
  cases i with
  | tick alive timeout => exact moves_tick h
  | voteRequest request timeout => exact Option.some.inj h ▸ m.moves_onVoteRequest request now timeout
  | vote vote alive => exact Option.some.inj h ▸ m.moves_onVote vote now alive
  | heartbeat beat timeout => exact Option.some.inj h ▸ m.moves_onHeartbeat beat now timeout

theorem moves_call (m : Machine) (now : Nat) (i : Input) : Moves now i m (m.call now i).2 (m.call now i).1 := by
  unfold call
  cases h : m.step now i with
  | none => exact .none m
  | some s => exact moves_step h

end Machine

end FleetCoordination.Election
