import Mathlib.Data.List.Chain
import FleetCoordination.Proofs.Election.Term
/-!
# Timers of a machine

A machine that does not lead has two timers: the lease of the leader that it has heard, and
the deadline of its next candidacy. While the lease lasts it does not stand, whatever else it
hears. Neither timer reaches further beyond the last call than a lease and one timeout, so a
machine that hears of no leader stands in the end, as long as there is a next term.
-/
namespace FleetCoordination.Election

/-- The timeout that is drawn with an input. -/
def Input.timeout? : Input → Option Nat
  | .tick _ timeout => some timeout
  | .voteRequest _ timeout => some timeout
  | .vote _ _ => none
  | .heartbeat _ timeout => some timeout

def Output.stood? : Output → Option Term
  | .broadcast (.voteRequest request) => some request.term
  | _ => none

/-- The terms stood for in a list of outputs, in order. -/
def stood (outputs : List Output) : List Term := outputs.filterMap Output.stood?

@[simp] theorem stood_append (xs ys : List Output) : stood (xs ++ ys) = stood xs ++ stood ys := by simp [stood]

theorem stood_steppedDown (phase : Phase) (term : Term) :
    stood (if phase = .leader then [.steppedDown term] else []) = [] := by split <;> rfl

/-! ## Clocks -/

/-- Whether the clock does not go back over some calls, from a start on. -/
def Clocked (start : Nat) (calls : List Call) : Prop := (start :: calls.map (·.now)).IsChain (· ≤ ·)

instance (start : Nat) (calls : List Call) : Decidable (Clocked start calls) :=
  inferInstanceAs (Decidable (List.IsChain _ _))

/-- The time of the last of some calls, or the start if there is none. -/
def lastCall (start : Nat) (calls : List Call) : Nat := calls.foldl (fun _ c => c.now) start

theorem clocked_cons {start : Nat} {c : Call} {calls : List Call} :
    Clocked start (c :: calls) ↔ start ≤ c.now ∧ Clocked c.now calls := List.isChain_cons_cons

theorem Clocked.right {start : Nat} {before after : List Call} {c : Call} (h : Clocked start (before ++ c :: after)) :
    Clocked c.now after := by
  induction before generalizing start with
  | nil => exact (clocked_cons.mp h).2
  | cons c' rest ih => exact ih (clocked_cons.mp h).2

theorem Clocked.le {start : Nat} {calls : List Call} (h : Clocked start calls) : ∀ c ∈ calls, start ≤ c.now := by
  induction calls generalizing start with
  | nil => simp
  | cons c rest ih =>
    obtain ⟨now, later⟩ := clocked_cons.mp h
    intro c' hc'
    rcases List.mem_cons.mp hc' with rfl | hc'
    · exact now
    · exact Nat.le_trans now (ih later c' hc')

/-! ## Constants -/

theorem Move.constants {now : Nat} {i : Input} {m m' : Machine} {outputs : List Output} (move : Move now i m outputs m') :
    m'.lease = m.lease ∧ m'.heartbeatInterval = m.heartbeatInterval := by
  cases move with
  | join => unfold Machine.addSupporter; split <;> exact ⟨rfl, rfl⟩
  | beat | stand | win | adopt | support | follow => exact ⟨rfl, rfl⟩

theorem Moves.constants {now : Nat} {i : Input} {m m' : Machine} {outputs : List Output}
    (moves : Moves now i m outputs m') : m'.lease = m.lease ∧ m'.heartbeatInterval = m.heartbeatInterval := by
  induction moves with
  | none => exact ⟨rfl, rfl⟩
  | cons move _ ih => exact ⟨ih.1.trans move.constants.1, ih.2.trans move.constants.2⟩

namespace Machine
variable {m m' : Machine} {now t most : Nat} {i : Input} {outputs : List Output}

theorem constants_run (m : Machine) (calls : List Call) :
    (m.run calls).1.lease = m.lease ∧ (m.run calls).1.heartbeatInterval = m.heartbeatInterval := by
  induction calls generalizing m with
  | nil => exact ⟨rfl, rfl⟩
  | cons c rest ih =>
    have first := (m.moves_call c.now c.input).constants
    exact ⟨(ih _).1.trans first.1, (ih _).2.trans first.2⟩

/-! ## The lease -/

/-- Whether a machine follows under a lease that lasts up to a time at least. -/
def Held (m : Machine) (t : Nat) : Prop := m.phase = .follower ∧ ∃ until_, m.leaseUntil = some until_ ∧ t ≤ until_

namespace Held

theorem not_due (h : m.Held t) (early : now < t) : m.electionDue now = false := by
  obtain ⟨follows, until_, lease, lasts⟩ := h
  simp [electionDue, leaseValid, follows, lease, Nat.lt_of_lt_of_le early lasts]

/-- No message ends a lease before its time, nor makes a follower stand or win. -/
theorem move (h : m.Held t) (move : Move now i m outputs m') (heard : ∀ alive timeout, i ≠ .tick alive timeout)
    (reaches : t ≤ now + m.lease) : m'.Held t ∧ stood outputs = [] ∧ won outputs = [] := by
  obtain ⟨follows, lease⟩ := h
  cases move with
  | beat | stand => exact (heard _ _ rfl).elim
  | win runs | join _ runs => simp [follows] at runs
  -- the lease is kept into a later term, and with a vote for another candidate
  | adopt => exact ⟨⟨rfl, lease⟩, stood_steppedDown .., won_steppedDown ..⟩
  | support => exact ⟨⟨rfl, lease⟩, rfl, rfl⟩
  | follow => exact ⟨⟨rfl, _, rfl, reaches⟩, stood_steppedDown .., won_steppedDown ..⟩

theorem moves (h : m.Held t) (moves : Moves now i m outputs m') (heard : ∀ alive timeout, i ≠ .tick alive timeout)
    (reaches : t ≤ now + m.lease) : m'.Held t ∧ stood outputs = [] ∧ won outputs = [] := by
  induction moves with
  | none => exact ⟨h, rfl, rfl⟩
  | cons move _ ih =>
    obtain ⟨held, noPlea, noWin⟩ := h.move move heard reaches
    obtain ⟨held', noPlea', noWin'⟩ := ih held (move.constants.1 ▸ reaches)
    exact ⟨held', by simp [noPlea, noPlea'], by simp [noWin, noWin']⟩

theorem call (h : m.Held t) (early : now < t) (reaches : t ≤ now + m.lease) (i : Input) :
    (m.call now i).1.Held t ∧ stood (m.call now i).2 = [] ∧ won (m.call now i).2 = [] := by
  cases i with
  | tick alive timeout =>
    have idle : m.call now (.tick alive timeout) = (m, []) := by
      simp [Machine.call, Machine.step, tick, h.1, h.not_due early]
    rw [idle]
    exact ⟨h, rfl, rfl⟩
  | voteRequest | vote | heartbeat => exact h.moves (m.moves_call now _) (by simp) reaches

theorem run {heard : Nat} (h : m.Held (heard + m.lease)) {calls : List Call} (later : ∀ c ∈ calls, heard ≤ c.now)
    (early : ∀ c ∈ calls, c.now < heard + m.lease) :
    (m.run calls).1.Held (heard + m.lease) ∧ stood (m.run calls).2 = [] ∧ won (m.run calls).2 = [] := by
  induction calls generalizing m with
  | nil => exact ⟨h, rfl, rfl⟩
  | cons c rest ih =>
    obtain ⟨now, later⟩ := List.forall_mem_cons.mp later
    obtain ⟨soon, early⟩ := List.forall_mem_cons.mp early
    obtain ⟨held, noPlea, noWin⟩ := h.call soon (Nat.add_le_add_right now _) c.input
    -- the bound is in terms of a setting of the machine, which is another machine by now
    have same : (m.call c.now c.input).1.lease = m.lease := (m.moves_call c.now c.input).constants.1
    obtain ⟨held', noPlea', noWin'⟩ := ih (same.symm ▸ held) later (same.symm ▸ early)
    exact ⟨same ▸ held', by simp [Machine.run, noPlea, noPlea'], by simp [Machine.run, noWin, noWin']⟩

end Held

theorem held_of_accepted {beat : Heartbeat} (accepted : m.disposition beat = .accepted) (now timeout : Nat) :
    (m.call now (.heartbeat beat timeout)).1.Held (now + m.lease) := by
  rw [call, step, Option.getD_some, onHeartbeat, accepted]
  exact ⟨rfl, _, rfl, Nat.le_refl _⟩

/-! ## The deadline -/

/-- Whether no timer reaches further beyond a time than a lease and the longest timeout. -/
structure Timely (m : Machine) (t most : Nat) : Prop where
  deadline : m.deadline ≤ t + m.lease + max most m.heartbeatInterval
  lease : ∀ until_, m.leaseUntil = some until_ → until_ ≤ t + m.lease

namespace Timely

theorem create (self : AgentId) {start timeout : Nat} (lease heartbeatInterval : Nat) (drawn : timeout ≤ most) :
    (Machine.create self start timeout lease heartbeatInterval).Timely start most where
  deadline := by simp only [Machine.create]; omega
  lease := by simp [Machine.create]

theorem later (h : m.Timely t most) (le : t ≤ now) : m.Timely now most where
  deadline := Nat.le_trans h.deadline (by omega)
  lease until_ known := Nat.le_trans (h.lease until_ known) (Nat.add_le_add_right le _)

theorem move (h : m.Timely now most) (move : Move now i m outputs m')
    (drawn : ∀ timeout, i.timeout? = some timeout → timeout ≤ most) : m'.Timely now most := by
  cases move with
  | beat => exact ⟨h.deadline, h.lease⟩
  | @stand _ _ timeout =>
    have le := drawn timeout rfl
    exact ⟨by simp only [candidacy]; omega, h.lease⟩
  | win => exact ⟨h.deadline, by simp [Machine.win]⟩
  | adopt => exact ⟨h.deadline, h.lease⟩
  | @support _ _ timeout =>
    have le := drawn timeout rfl
    exact ⟨by simp only [Machine.support]; omega, h.lease⟩
  | join => unfold addSupporter; split <;> exact ⟨h.deadline, h.lease⟩
  | @follow _ _ timeout =>
    have le := drawn timeout rfl
    exact ⟨by simp only [Machine.follow]; omega, by simp [Machine.follow]⟩

theorem moves (h : m.Timely now most) (moves : Moves now i m outputs m')
    (drawn : ∀ timeout, i.timeout? = some timeout → timeout ≤ most) : m'.Timely now most := by
  induction moves with
  | none => exact h
  | cons move _ ih => exact ih (h.move move drawn)

theorem run (h : m.Timely t most) {calls : List Call} (clocked : Clocked t calls)
    (drawn : ∀ c ∈ calls, ∀ timeout, c.input.timeout? = some timeout → timeout ≤ most) :
    (m.run calls).1.Timely (lastCall t calls) most := by
  induction calls generalizing m t with
  | nil => exact h
  | cons c rest ih =>
    obtain ⟨le, clocked⟩ := clocked_cons.mp clocked
    obtain ⟨now, later⟩ := List.forall_mem_cons.mp drawn
    exact ih ((h.later le).moves (m.moves_call c.now c.input) now) clocked later

theorem due (h : m.Timely t most) (free : m.phase ≠ .leader)
    (late : t + m.lease + max most m.heartbeatInterval ≤ now) : m.electionDue now = true := by
  have deadline : m.deadline ≤ now := Nat.le_trans h.deadline late
  have expired : m.leaseValid now = false := by
    unfold leaseValid
    split
    · next until_ known =>
      have := h.lease until_ known
      exact decide_eq_false (by omega)
    · rfl
  cases phase : m.phase with
  | leader => exact (free phase).elim
  | candidate => simp [electionDue, phase, deadline]
  | follower => simp [electionDue, phase, deadline, expired]

end Timely

/-- A machine whose election is due goes on to the next term, if there is one, and asks for votes in it. -/
theorem tick_next (due : m.electionDue now = true) (next : m.term < lastTerm) (alive : List AgentId) (timeout : Nat) :
    ∃ s, m.tick now alive timeout = some s ∧ s.1.term = m.term + 1 ∧ s.1.phase ≠ .follower ∧
      .broadcast (.voteRequest { term := m.term + 1, candidate := m.self, uptime := m.uptime now }) ∈ s.2 := by
  refine ⟨_, (tick_of_due due alive timeout).trans (if_pos next), ?_, ?_, List.mem_cons_self⟩
  · exact ((m.candidacy now timeout).stamped_winIfMajority m now alive).1
  · unfold candidate winIfMajority
    split <;> simp [win, candidacy]

end Machine

/-! ## Both timers -/

/-- A machine with a clock that does not go back and timeouts up to `most`: from an accepted
heartbeat on it follows for a lease, neither standing nor winning, and no tick would have it
stand. After any calls, if it does not lead, a tick that comes a lease and the longest timeout
later has it stand for the next term, or ends in a panic if its term is the last there is. -/
theorem timers_bounded (self : AgentId) (start timeout most lease heartbeatInterval : Nat) (calls : List Call)
    (clocked : Clocked start calls) (first : timeout ≤ most)
    (drawn : ∀ c ∈ calls, ∀ timeout, c.input.timeout? = some timeout → timeout ≤ most) :
    let origin := Machine.create self start timeout lease heartbeatInterval
    (∀ before t beat timeout after, calls = before ++ ⟨t, .heartbeat beat timeout⟩ :: after →
      (origin.run before).1.disposition beat = .accepted → (∀ c ∈ after, c.now < t + lease) →
        let led := ((origin.run before).1.call t (.heartbeat beat timeout)).1.run after
        led.1.phase = .follower ∧ stood led.2 = [] ∧ won led.2 = [] ∧
          ∀ now < t + lease, led.1.electionDue now = false) ∧
    let m := (origin.run calls).1
    m.phase ≠ .leader → ∀ now alive timeout, lastCall start calls + lease + max most heartbeatInterval ≤ now →
      (m.tick now alive timeout = none ↔ lastTerm ≤ m.term) ∧
      (m.term < lastTerm → ∃ s, m.tick now alive timeout = some s ∧ s.1.term = m.term + 1 ∧ s.1.phase ≠ .follower ∧
        .broadcast (.voteRequest { term := m.term + 1, candidate := self, uptime := m.uptime now }) ∈ s.2) := by
  intro origin
  refine ⟨fun before t beat timeout after split accepted early => ?_, fun free now alive timeout late => ?_⟩
  · have constant : (origin.run before).1.lease = lease := (origin.constants_run before).1
    have held := Machine.held_of_accepted accepted t timeout
    have same := ((origin.run before).1.moves_call t (.heartbeat beat timeout)).constants.1.trans constant
    subst split
    rw [constant, ← same] at held
    obtain ⟨held, noPlea, noWin⟩ := held.run clocked.right.le (same.symm ▸ early)
    rw [same] at held
    exact ⟨held.1, noPlea, noWin, fun now soon => held.not_due soon⟩
  · have timely := (Machine.Timely.create self lease heartbeatInterval first).run clocked drawn
    obtain ⟨constant, constant'⟩ := origin.constants_run calls
    have due : (origin.run calls).1.electionDue now = true := timely.due free (by rw [constant, constant']; exact late)
    have own : (origin.run calls).1.self = self := origin.self_run calls
    refine ⟨?_, fun next => own ▸ Machine.tick_next due next alive timeout⟩
    rw [Machine.tick_of_due due]
    split
    · next next => simpa using next
    · next last => simpa using last

/-- Follower `A` of leader `B`, that grants another agent its vote under the lease. -/
def steady : List Call :=
  [⟨100, .heartbeat { term := 1, leader := "B", time := .epoch } 200⟩,
    ⟨150, .voteRequest { term := 2, candidate := "C", uptime := 5 } 200⟩, ⟨5000, .tick ["A", "B"] 200⟩]

/-- The follower keeps to its lease although the term is another, and stands once both are over. -/
theorem timers_bounded_steady :
    let m := ((Machine.create "A" 0 200 10000 1000).run steady).1
    Clocked 0 steady ∧ m.term = 2 ∧ m.deadline = 1150 ∧ m.electionDue 10099 = false ∧
      ∃ s, m.tick 16000 ["A", "B"] 200 = some s ∧ s.1.term = 3 := by
  have bounded := timers_bounded "A" 0 200 200 10000 1000 steady (by decide) (by decide)
    (by simp [steady, Input.timeout?])
  have lasts := bounded.1 [] 100 _ 200 _ rfl rfl (by decide)
  have stands := bounded.2 (by decide) 16000 ["A", "B"] 200 (by decide)
  obtain ⟨s, ticked, term, -⟩ := stands.2 (by decide)
  exact ⟨by decide, rfl, rfl, lasts.2.2.2 10099 (by decide), s, ticked, term⟩

/-- A follower that has been told of the last term, by a request that it has granted. -/
def eventual : List Call := [⟨1, .voteRequest { term := lastTerm, candidate := "B", uptime := 0 } 200⟩]

/-- In the last term there is none to stand for, and a tick that is due ends in a panic. -/
theorem no_next_term :
    let m := ((Machine.create "A" 0 200 10000 1000).run eventual).1
    Clocked 0 eventual ∧ (∀ c ∈ eventual, ∀ timeout, c.input.timeout? = some timeout → timeout ≤ 200) ∧
      m.phase = .follower ∧ m.term = lastTerm ∧
      ∀ alive timeout, m.tick (lastCall 0 eventual + 10000 + max 200 1000) alive timeout = none :=
  ⟨by decide, by simp [eventual, Input.timeout?], by decide, by decide,
    fun _ _ => Machine.tick_of_due (by decide) _ _⟩

end FleetCoordination.Election
