import Mathlib.Tactic.Tauto
import FleetCoordination.Proofs.Election.Move
/-!
# Support in a term

A machine supports an agent in a term by granting it its vote, or by winning the term
itself. A candidate may take back its own vote and grant it to a rival, but it has not
won by then; so a machine supports at most one agent in a term, whatever its inputs are.
-/
namespace FleetCoordination.Election

def Output.won? : Output → Option Term
  | .becameLeader term _ => some term
  | _ => none

def Output.vote? : Output → Option (AgentId × Term)
  | .voteGranted candidate term => some (candidate, term)
  | _ => none

/-- The terms won in a list of outputs, in order. -/
def won (outputs : List Output) : List Term := outputs.filterMap Output.won?

/-- The votes granted in a list of outputs, in order. -/
def votes (outputs : List Output) : List (AgentId × Term) := outputs.filterMap Output.vote?

@[simp] theorem won_append (xs ys : List Output) : won (xs ++ ys) = won xs ++ won ys := by simp [won]

@[simp] theorem votes_append (xs ys : List Output) : votes (xs ++ ys) = votes xs ++ votes ys := by simp [votes]

theorem mem_won {outputs : List Output} {term : Term} :
    term ∈ won outputs ↔ ∃ wait, .becameLeader term wait ∈ outputs := by
  simp only [won, List.mem_filterMap]
  constructor
  · rintro ⟨o, ho, h⟩
    cases o <;> simp_all [Output.won?]
    exact ⟨_, ho⟩
  · rintro ⟨wait, h⟩
    exact ⟨_, h, rfl⟩

theorem mem_votes {outputs : List Output} {candidate : AgentId} {term : Term} :
    (candidate, term) ∈ votes outputs ↔ .voteGranted candidate term ∈ outputs := by
  simp only [votes, List.mem_filterMap]
  constructor
  · rintro ⟨o, ho, h⟩
    cases o <;> simp_all [Output.vote?]
  · intro h
    exact ⟨_, h, rfl⟩

/-- Whether a machine with these outputs has supported a candidate in a term. -/
def Supports (self : AgentId) (outputs : List Output) (candidate : AgentId) (term : Term) : Prop :=
  (candidate, term) ∈ votes outputs ∨ candidate = self ∧ term ∈ won outputs

theorem supports_append {self candidate : AgentId} {xs ys : List Output} {term : Term} :
    Supports self (xs ++ ys) candidate term ↔ Supports self xs candidate term ∨ Supports self ys candidate term := by
  simp only [Supports, votes_append, won_append, List.mem_append]
  tauto

/-- What ties a machine to its past outputs: its support in a term is recorded as its
vote while the term lasts, and a candidate has given none yet. -/
structure Machine.Faithful (m : Machine) (past : List Output) : Prop where
  known : ∀ {candidate term}, Supports m.self past candidate term → term ≤ m.term
  recorded : ∀ {candidate}, Supports m.self past candidate m.term →
    m.votedFor = some candidate ∧ m.phase ≠ .candidate
  own : m.phase ≠ .follower → m.votedFor = some m.self
  unique : ∀ {a b term}, Supports m.self past a term → Supports m.self past b term → a = b
  wonOnce : (won past).Nodup

/-- What a move does to the support a machine has given. -/
inductive Backing (m : Machine) (outputs : List Output) (m' : Machine) : Prop
  /-- It gives none and stays in its term with its vote. -/
  | same (votes : votes outputs = []) (won : won outputs = []) (term : m'.term = m.term)
      (vote : m'.votedFor = m.votedFor) (phase : m'.phase = m.phase ∨ m'.phase = .follower)
  /-- It gives none and enters a higher term. -/
  | later (votes : votes outputs = []) (won : won outputs = []) (term : m.term < m'.term)
      (own : m'.phase ≠ .follower → m'.votedFor = some m.self)
  /-- It grants its vote, which was free, the candidate's already, or its own. -/
  | grant (candidate : AgentId) (free : m.phase = .candidate ∨ m.votedFor = none ∨ m.votedFor = some candidate)
      (votes : votes outputs = [(candidate, m.term)]) (won : won outputs = []) (term : m'.term = m.term)
      (vote : m'.votedFor = some candidate) (phase : m'.phase = .follower)
  /-- It wins as a candidate. -/
  | win (runs : m.phase = .candidate) (votes : votes outputs = []) (won : won outputs = [m.term])
      (term : m'.term = m.term) (vote : m'.votedFor = m.votedFor) (phase : m'.phase = .leader)

theorem votes_steppedDown (phase : Phase) (term : Term) :
    votes (if phase = .leader then [.steppedDown term] else []) = [] := by split <;> rfl

theorem won_steppedDown (phase : Phase) (term : Term) :
    won (if phase = .leader then [.steppedDown term] else []) = [] := by split <;> rfl

theorem Machine.le_of_accepted {m : Machine} {beat : Heartbeat} (h : m.disposition beat = .accepted) :
    m.term ≤ beat.term := by
  unfold disposition at h
  split at h
  · cases h
  · next current => exact Nat.not_lt.mp current

theorem Machine.free_of_grants {m : Machine} {request : VoteRequest} {now : Nat} (h : m.grants request now = true) :
    m.phase = .candidate ∨ m.votedFor = none ∨ m.votedFor = some request.candidate := by
  unfold grants at h
  split at h
  · cases h
  · next runs => exact .inl runs
  · split at h
    · next none => exact .inr (.inl none)
    · next candidate voted => exact .inr (.inr (voted.trans (congrArg some (of_decide_eq_true h))))

namespace Move
variable {now : Nat} {i : Input} {m m' : Machine} {outputs : List Output}

theorem self_eq (h : Move now i m outputs m') : m'.self = m.self := by
  cases h with
  | join => unfold Machine.addSupporter; split <;> rfl
  | beat | stand | win | adopt | support | follow => rfl

theorem backing (h : Move now i m outputs m') : Backing m outputs m' := by
  cases h with
  | beat => exact .same rfl rfl rfl rfl (.inl rfl)
  | stand => exact .later rfl rfl (Nat.lt_succ_self m.term) fun _ => rfl
  | win runs => exact .win runs rfl rfl rfl rfl rfl
  | adopt _ higher =>
    exact .later (votes_steppedDown ..) (won_steppedDown ..) higher fun h => (h rfl).elim
  | support _ grants => exact .grant _ (Machine.free_of_grants grants) rfl rfl rfl rfl rfl
  | join =>
    unfold Machine.addSupporter
    split <;> exact .same rfl rfl rfl rfl (.inl rfl)
  | @follow _ beat _ accepted =>
    rcases Nat.lt_or_eq_of_le (Machine.le_of_accepted accepted) with higher | current
    · exact .later (votes_steppedDown ..) (won_steppedDown ..) higher fun h => (h rfl).elim
    · have vote : (if m.term < beat.term then none else m.votedFor) = m.votedFor := by simp [current]
      exact .same (votes_steppedDown ..) (won_steppedDown ..) current.symm vote (.inr rfl)

end Move

theorem Moves.self_eq {now : Nat} {i : Input} {m m' : Machine} {outputs : List Output} (moves : Moves now i m outputs m') :
    m'.self = m.self := by
  induction moves with
  | none => rfl
  | cons move _ ih => exact ih.trans move.self_eq

theorem Machine.self_call (m : Machine) (now : Nat) (i : Input) : (m.call now i).1.self = m.self :=
  (m.moves_call now i).self_eq

namespace Machine.Faithful
variable {now : Nat} {i : Input} {m m' : Machine} {past outputs : List Output}

theorem create (self : AgentId) (now timeout lease heartbeatInterval : Nat) :
    (Machine.create self now timeout lease heartbeatInterval).Faithful [] where
  known h := by simp [Supports, votes, won] at h
  recorded h := by simp [Supports, votes, won] at h
  own h := (h rfl).elim
  unique h := by simp [Supports, votes, won] at h
  wonOnce := .nil

/-- A move that gives no support leaves the record as it was. -/
theorem of_silent (h : m.Faithful past) (self : m'.self = m.self) (noVotes : votes outputs = [])
    (noWins : won outputs = []) (known : m.term ≤ m'.term)
    (recorded : m'.term = m.term → m'.votedFor = m.votedFor ∧ (m'.phase = m.phase ∨ m'.phase = .follower))
    (own : m'.phase ≠ .follower → m'.votedFor = some m.self) : m'.Faithful (past ++ outputs) := by
  have supports {c t} : Supports m'.self (past ++ outputs) c t ↔ Supports m.self past c t := by
    simp [Supports, noVotes, noWins, self]
  refine ⟨fun s => Nat.le_trans (h.known (supports.mp s)) known, fun {c} s => ?_, fun p => self ▸ own p,
    fun s s' => h.unique (supports.mp s) (supports.mp s'), by simpa [noWins] using h.wonOnce⟩
  have stays : m'.term = m.term := Nat.le_antisymm (h.known (supports.mp s)) known
  obtain ⟨vote, phase⟩ := h.recorded (stays ▸ supports.mp s)
  obtain ⟨vote', phase'⟩ := recorded stays
  refine ⟨vote'.trans vote, ?_⟩
  rcases phase' with e | e <;> rw [e]
  · exact phase
  · decide

/-- A move that supports one candidate in the current term, which no other may have had. -/
theorem of_support (candidate : AgentId) (h : m.Faithful past) (self : m'.self = m.self)
    (new : ∀ c t, Supports m.self outputs c t ↔ c = candidate ∧ t = m.term)
    (free : ∀ c, Supports m.self past c m.term → c = candidate) (term : m'.term = m.term)
    (vote : m'.votedFor = some candidate) (phase : m'.phase ≠ .candidate)
    (own : m'.phase ≠ .follower → candidate = m.self) (wonOnce : (won (past ++ outputs)).Nodup) :
    m'.Faithful (past ++ outputs) := by
  have supports {c t} : Supports m'.self (past ++ outputs) c t ↔
      Supports m.self past c t ∨ c = candidate ∧ t = m.term := by
    rw [self, supports_append, new]
  refine ⟨fun s => ?_, fun {c} s => ⟨?_, phase⟩, fun p => by rw [vote, own p, self], fun s s' => ?_, wonOnce⟩
  · rw [term]
    rcases supports.mp s with old | ⟨-, e⟩
    · exact h.known old
    · exact Nat.le_of_eq e
  · rw [term] at s
    rcases supports.mp s with old | ⟨e, -⟩
    · rw [vote, free c old]
    · rw [vote, e]
  · rcases supports.mp s with old | ⟨rfl, rfl⟩ <;> rcases supports.mp s' with old' | ⟨rfl, e⟩
    · exact h.unique old old'
    · subst e; exact free _ old
    · exact (free _ old').symm
    · rfl

theorem move (h : m.Faithful past) (move : Move now i m outputs m') : m'.Faithful (past ++ outputs) := by
  cases move.backing with
  | same noVotes noWins term vote phase =>
    refine h.of_silent move.self_eq noVotes noWins (Nat.le_of_eq term.symm) (fun _ => ⟨vote, phase⟩) fun p => ?_
    rw [vote]
    exact h.own (phase.resolve_right p ▸ p)
  | later noVotes noWins term own =>
    exact h.of_silent move.self_eq noVotes noWins (Nat.le_of_lt term) (fun e => (Nat.ne_of_gt term e).elim) own
  | grant candidate free votes noWins term vote phase =>
    refine of_support candidate h move.self_eq (by simp [Supports, votes, noWins]) (fun c s => ?_) term vote
      (by simp [phase]) (fun p => (p phase).elim) (by simpa [noWins] using h.wonOnce)
    obtain ⟨recorded, notCandidate⟩ := h.recorded s
    rcases free with runs | none | same
    · exact (notCandidate runs).elim
    · simp [none] at recorded
    · exact Option.some.inj (recorded.symm.trans same)
  | win runs noVotes wins term vote phase =>
    have fresh : ∀ c, ¬ Supports m.self past c m.term := fun c s => (h.recorded s).2 runs
    refine of_support m.self h move.self_eq (by simp [Supports, noVotes, wins])
      (fun c s => (fresh c s).elim) term (vote.trans (h.own (by simp [runs]))) (by simp [phase]) (fun _ => rfl) ?_
    rw [won_append, wins, List.nodup_append]
    refine ⟨h.wonOnce, by simp, fun t ht t' ht' e => fresh m.self (.inr ⟨rfl, ?_⟩)⟩
    rwa [← List.mem_singleton.mp ht', ← e]

theorem moves (h : m.Faithful past) (moves : Moves now i m outputs m') : m'.Faithful (past ++ outputs) := by
  induction moves generalizing past with
  | none => simpa using h
  | cons move _ ih => simpa only [List.append_assoc] using ih (h.move move)

theorem call (h : m.Faithful past) (now : Nat) (i : Input) :
    (m.call now i).1.Faithful (past ++ (m.call now i).2) := h.moves (m.moves_call now i)

end Machine.Faithful

end FleetCoordination.Election
