import FleetCoordination.Proofs.Election.Run
/-!
# Terms of a machine

A machine never goes back to an earlier term. Messages of earlier terms pass it by, and what
it puts out in a step bears the term that the step leaves it in, but for the notice of
stepping down, which bears the term it has led.
-/
namespace FleetCoordination

/-- The term that a message is sent in. -/
def Message.term? : Message → Option Term
  | .voteRequest m => some m.term
  | .electionVote m => some m.term
  | .heartbeat m => some m.term
  | .approval m => some m.term
  | .propagate m => some m.term
  | .proposalRequest _ | .proposalVote _ | .ack _ => none

namespace Election

/-- The term that an output bears. -/
def Output.term? : Output → Option Term
  | .broadcast m => m.term?
  | .reply _ m => m.term?
  | .becameLeader term _ => some term
  | .steppedDown term => some term
  | .voteGranted _ term => some term

/-- Whether an output of a step from a machine to another bears the later term or, as the notice
of stepping down, the earlier one, in which the machine has led. -/
def Output.Stamped (m m' : Machine) (o : Output) : Prop :=
  match o with
  | .steppedDown term => m.phase = .leader ∧ term = m.term
  | o => o.term? = some m'.term

/-! ## Growth -/

theorem Backing.term_le {m m' : Machine} {outputs : List Output} (h : Backing m outputs m') : m.term ≤ m'.term := by
  cases h with
  | same _ _ term | grant _ _ _ _ term | win _ _ _ term => exact Nat.le_of_eq term.symm
  | later _ _ term => exact Nat.le_of_lt term

theorem Moves.term_le {now : Nat} {i : Input} {m m' : Machine} {outputs : List Output}
    (moves : Moves now i m outputs m') : m.term ≤ m'.term := by
  induction moves with
  | none => exact Nat.le_refl _
  | cons move _ ih => exact Nat.le_trans move.backing.term_le ih

namespace Machine

theorem term_call_le (m : Machine) (now : Nat) (i : Input) : m.term ≤ (m.call now i).1.term :=
  (m.moves_call now i).term_le

theorem term_run_le (m : Machine) (calls : List Call) : m.term ≤ (m.run calls).1.term := by
  induction calls generalizing m with
  | nil => exact Nat.le_refl _
  | cons c rest ih => exact Nat.le_trans (m.term_call_le c.now c.input) (ih _)

/-! ## Messages of earlier terms -/

theorem disposition_of_lt {m : Machine} {beat : Heartbeat} (h : beat.term < m.term) : m.disposition beat = .stale :=
  if_pos h

theorem call_of_lt {m : Machine} {i : Input} {term : Term} (brought : i.term? = some term) (earlier : term < m.term)
    (now : Nat) : m.call now i = (m, []) := by
  cases i with
  | tick => cases brought
  | voteRequest request timeout =>
    cases brought
    exact if_pos earlier
  | vote vote alive =>
    cases brought
    simp only [call, step, Option.getD_some, onVote, if_neg (Nat.lt_asymm earlier), earlier, true_or, if_true]
  | heartbeat beat timeout =>
    cases brought
    simp only [call, step, Option.getD_some, onHeartbeat, disposition_of_lt earlier]

/-! ## Stamps -/

section Stamps
variable {m : Machine} {now timeout : Nat} {alive : List AgentId} {o : Output}

theorem stamped_steppedDown {m' : Machine} (ho : o ∈ if m.phase = .leader then [.steppedDown m.term] else []) :
    o.Stamped m m' := by
  split at ho
  · next leads =>
    rw [List.mem_singleton.mp ho]
    exact ⟨leads, rfl⟩
  · cases ho

theorem stamped_catchUp {m' : Machine} {term : Term} (ho : o ∈ (m.catchUp term).2) : o.Stamped m m' := by
  unfold catchUp at ho
  split at ho
  · exact stamped_steppedDown ho
  · cases ho

theorem stamped_support {m₀ : Machine} {request : VoteRequest} (ho : o ∈ (m.support request now timeout).2) :
    o.Stamped m₀ (m.support request now timeout).1 := by
  obtain rfl | rfl : o = _ ∨ o = _ := by simpa [support] using ho
  · rfl
  · rfl

/-- A win bears the term of the machine, which it leaves as it is. -/
theorem stamped_winIfMajority (m m₀ : Machine) (now : Nat) (alive : List AgentId) :
    (m.winIfMajority now alive).1.term = m.term ∧
      ∀ o ∈ (m.winIfMajority now alive).2, o.Stamped m₀ (m.winIfMajority now alive).1 := by
  unfold winIfMajority
  split
  · refine ⟨rfl, fun o ho => ?_⟩
    obtain rfl | rfl : o = _ ∨ o = _ := by simpa [win] using ho
    · rfl
    · rfl
  · exact ⟨rfl, by simp⟩

theorem stamped_tick {s : Machine × List Output} (h : m.tick now alive timeout = some s) (ho : o ∈ s.2) :
    o.Stamped m s.1 := by
  obtain rfl | ⟨leads, rfl⟩ | ⟨free, next, rfl⟩ := tick_cases h
  · cases ho
  · rw [List.mem_singleton.mp ho]
    rfl
  · obtain ⟨term, stamped⟩ := (m.candidacy now timeout).stamped_winIfMajority m now alive
    rcases List.mem_cons.mp ho with rfl | won
    · exact congrArg some term.symm
    · exact stamped o won

theorem stamped_onVoteRequest {request : VoteRequest} (ho : o ∈ (m.onVoteRequest request now timeout).2) :
    o.Stamped m (m.onVoteRequest request now timeout).1 := by
  unfold onVoteRequest at ho ⊢
  dsimp only at ho ⊢
  by_cases earlier : request.term < m.term
  · rw [if_pos earlier] at ho
    cases ho
  · rw [if_neg earlier] at ho ⊢
    split at ho
    · next grants =>
      rw [if_pos grants]
      rcases List.mem_append.mp ho with down | granted
      · exact stamped_catchUp down
      · exact stamped_support granted
    · exact stamped_catchUp ho

theorem stamped_onVote {vote : ElectionVote} (ho : o ∈ (m.onVote vote now alive).2) :
    o.Stamped m (m.onVote vote now alive).1 := by
  unfold onVote at ho ⊢
  by_cases higher : m.term < vote.term
  · rw [if_pos higher] at ho ⊢
    exact stamped_steppedDown ho
  · rw [if_neg higher] at ho ⊢
    split at ho
    · cases ho
    · next counts =>
      rw [if_neg counts]
      exact ((m.addSupporter vote.voter).stamped_winIfMajority m now alive).2 o ho

theorem stamped_onHeartbeat {beat : Heartbeat} (ho : o ∈ (m.onHeartbeat beat now timeout).2) :
    o.Stamped m (m.onHeartbeat beat now timeout).1 := by
  unfold onHeartbeat at ho ⊢
  split at ho
  · exact stamped_steppedDown ho
  · cases ho
  · cases ho

end Stamps

theorem stamped_call {m : Machine} {now : Nat} {i : Input} {o : Output} (ho : o ∈ (m.call now i).2) :
    o.Stamped m (m.call now i).1 := by
  cases i with
  | tick alive timeout =>
    rcases m.call_cases now (.tick alive timeout) with panic | step
    · rw [panic] at ho
      cases ho
    · exact stamped_tick step ho
  | voteRequest => exact stamped_onVoteRequest ho
  | vote => exact stamped_onVote ho
  | heartbeat => exact stamped_onHeartbeat ho

end Machine

/-! ## Discipline -/

/-- What a machine does about terms when it is called: its term does not shrink, a message of an
earlier term is as if it had not come, and outputs bear the term that they are put out in. -/
structure Machine.Disciplined (m : Machine) (c : Call) : Prop where
  grows : m.term ≤ (m.call c.now c.input).1.term
  ignores : ∀ term, c.input.term? = some term → term < m.term → m.call c.now c.input = (m, [])
  stale : ∀ beat timeout, c.input = .heartbeat beat timeout → beat.term < m.term → m.disposition beat = .stale
  stamped : ∀ o ∈ (m.call c.now c.input).2, o.Stamped m (m.call c.now c.input).1

theorem Machine.disciplined (m : Machine) (c : Call) : m.Disciplined c where
  grows := m.term_call_le c.now c.input
  ignores _ brought earlier := call_of_lt brought earlier c.now
  stale _ _ _ earlier := disposition_of_lt earlier
  stamped _ ho := stamped_call ho

/-- However a machine has come to its term, in all that follows it is disciplined and never
again accepts a heartbeat of an earlier term or grants its vote for one. -/
theorem term_discipline (m : Machine) (calls : List Call) (c : Call) :
    m.term ≤ (m.run calls).1.term ∧ (m.run calls).1.Disciplined c ∧
      ∀ term < m.term,
        (∀ beat timeout, c.input = .heartbeat beat timeout → beat.term = term →
          (m.run calls).1.disposition beat ≠ .accepted) ∧
        ∀ candidate, .voteGranted candidate term ∉ ((m.run calls).1.call c.now c.input).2 := by
  have grown := m.term_run_le calls
  have disciplined := (m.run calls).1.disciplined c
  refine ⟨grown, disciplined, fun term earlier => ⟨fun beat timeout called same => ?_, fun candidate granted => ?_⟩⟩
  · have stale : beat.term < (m.run calls).1.term := same ▸ Nat.lt_of_lt_of_le earlier grown
    rw [disciplined.stale beat timeout called stale]
    decide
  · have current : some term = some _ := disciplined.stamped _ granted
    have later := disciplined.grows
    rw [← Option.some.inj current] at later
    exact Nat.not_le_of_lt earlier (Nat.le_trans grown later)

/-- A leader of term 1 that a heartbeat of term 3 has deposed. -/
def deposed : Machine :=
  ((Machine.create "A" 0 0 10000 1000).run
    [⟨1, .tick ["A"] 200⟩, ⟨2, .heartbeat { term := 3, leader := "B", time := .epoch } 200⟩]).1

/-- A heartbeat of the term that the deposed leader has led. -/
def bygone : Heartbeat := { term := 1, leader := "C", time := .epoch }

/-- The deposed leader stands again, and then takes no notice of a leader of its old term. -/
theorem term_discipline_deposed :
    1 < deposed.term ∧ (deposed.run [⟨20000, .tick ["A", "B"] 200⟩]).1.phase = .candidate ∧
      deposed.term ≤ (deposed.run [⟨20000, .tick ["A", "B"] 200⟩]).1.term ∧
      (deposed.run [⟨20000, .tick ["A", "B"] 200⟩]).1.disposition bygone ≠ .accepted ∧
      (deposed.run [⟨20000, .tick ["A", "B"] 200⟩]).1.Disciplined ⟨20001, .heartbeat bygone 200⟩ := by
  have earlier : 1 < deposed.term := by decide
  obtain ⟨grown, disciplined, past⟩ :=
    term_discipline deposed [⟨20000, .tick ["A", "B"] 200⟩] ⟨20001, .heartbeat bygone 200⟩
  exact ⟨earlier, by decide, grown, (past 1 earlier).1 bygone 200 rfl rfl, disciplined⟩

end Election

end FleetCoordination
