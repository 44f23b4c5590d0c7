import FleetCoordination.Leadership
import FleetCoordination.Proofs.Election.Office
import FleetCoordination.Proofs.Election.Run
/-!
# Coherence of a machine

The fields of a machine are set one by one, some by this move and some by that. In every
phase they fit together all the same: who leads is the leader it knows of, and what it
knew in an earlier phase does not linger.
-/
namespace FleetCoordination.Election

/-- What the fields of a machine are in each phase. -/
structure Machine.Coherent (m : Machine) : Prop where
  leads_iff : m.phase = .leader ↔ m.leader = some m.self
  leader : m.phase = .leader → m.votedFor = some m.self ∧ m.leaseUntil = none ∧ 1 ≤ m.term
  candidate : m.phase = .candidate → m.votedFor = some m.self ∧ m.self ∈ m.supporters ∧ m.leader = none ∧ 1 ≤ m.term
  follower : m.phase = .follower → m.supporters = []

namespace Machine
variable {m : Machine} {now : Nat}

theorem ne_self_of_accepted {beat : Heartbeat} (h : m.disposition beat = .accepted) : beat.leader ≠ m.self := by
  intro own
  unfold disposition at h
  rw [if_pos own] at h
  split at h <;> cases h

theorem self_mem_addSupporter (h : m.self ∈ m.supporters) (voter : AgentId) :
    (m.addSupporter voter).self ∈ (m.addSupporter voter).supporters := by
  unfold addSupporter
  split
  · exact h
  · exact List.mem_append_left _ h

namespace Coherent

theorem create (self : AgentId) (start timeout lease heartbeatInterval : Nat) :
    (Machine.create self start timeout lease heartbeatInterval).Coherent where
  leads_iff := by simp [Machine.create]
  leader := by simp [Machine.create]
  candidate := by simp [Machine.create]
  follower _ := rfl

/-- A machine that turns follower is coherent if it knows another leader or none. -/
theorem of_follower (phase : m.phase = .follower) (unled : m.leader ≠ some m.self) (alone : m.supporters = []) :
    m.Coherent where
  leads_iff := iff_of_false (by simp [phase]) unled
  leader leads := by simp [phase] at leads
  candidate runs := by simp [phase] at runs
  follower _ := alone

theorem candidacy (m : Machine) (now timeout : Nat) : (m.candidacy now timeout).Coherent where
  leads_iff := by simp [Machine.candidacy]
  leader := by simp [Machine.candidacy]
  candidate _ := ⟨rfl, List.mem_singleton_self _, rfl, Nat.le_add_left 1 m.term⟩
  follower := by simp [Machine.candidacy]

theorem win (h : m.Coherent) (runs : m.phase = .candidate) (now : Nat) : (m.win now).1.Coherent where
  leads_iff := iff_of_true rfl rfl
  leader _ := ⟨(h.candidate runs).1, rfl, (h.candidate runs).2.2.2⟩
  candidate := by simp [Machine.win]
  follower := by simp [Machine.win]

theorem support (h : m.Coherent) {request : VoteRequest} (grants : m.grants request now = true) (timeout : Nat) :
    (m.support request now timeout).1.Coherent := by
  have free : m.phase ≠ .leader := not_leader_of_grants grants
  refine of_follower rfl (fun known => free (h.leads_iff.mpr known)) ?_
  cases phase : m.phase with
  | leader => exact absurd phase free
  | candidate => exact if_pos phase
  | follower => exact (if_neg (by simp [phase])).trans (h.follower phase)

theorem join (h : m.Coherent) (runs : m.phase = .candidate) (voter : AgentId) : (m.addSupporter voter).Coherent := by
  obtain ⟨voted, own, unled, term⟩ := h.candidate runs
  have own := self_mem_addSupporter own voter
  unfold addSupporter at own ⊢
  split at own
  · next known => rwa [if_pos known]
  · next new =>
    rw [if_neg new]
    exact ⟨h.leads_iff, h.leader, fun _ => ⟨voted, own, unled, term⟩, by simp [runs]⟩

theorem move (h : m.Coherent) {i : Input} {m' : Machine} {outputs : List Output} (move : Move now i m outputs m') :
    m'.Coherent := by
  cases move with
  | beat => exact ⟨h.leads_iff, h.leader, h.candidate, h.follower⟩
  | stand => exact .candidacy ..
  | win runs => exact h.win runs now
  | adopt => exact of_follower rfl (by simp [Machine.adopt]) rfl
  | support _ grants => exact h.support grants _
  | join _ runs => exact h.join runs _
  | follow accepted => exact of_follower rfl (by simpa [Machine.follow] using ne_self_of_accepted accepted) rfl

theorem moves (h : m.Coherent) {i : Input} {m' : Machine} {outputs : List Output}
    (moves : Moves now i m outputs m') : m'.Coherent := by
  induction moves with
  | none => exact h
  | cons move _ ih => exact ih (h.move move)

theorem call (h : m.Coherent) (now : Nat) (i : Input) : (m.call now i).1.Coherent := h.moves (m.moves_call now i)

theorem run (h : m.Coherent) (calls : List Call) : (m.run calls).1.Coherent := by
  induction calls generalizing m with
  | nil => exact h
  | cons c rest ih => exact ih (h.call c.now c.input)

/-- What a coherent machine shows of itself is how a fixed leadership with its leader shows itself. -/
theorem view_eq (h : m.Coherent) (metrics : ElectionMetrics) :
    Leadership.view { machine := m, metrics } = .fixed m.self m.leader m.term := by
  simp only [Leadership.view, LeadershipView.fixed, isLeader, h.leads_iff]

end Coherent

end Machine

/-- Whatever a machine is told from its creation on, its fields fit its phase, and it is seen to
lead exactly if the leader it knows of is itself. -/
theorem phase_coherent (self : AgentId) (start timeout lease heartbeatInterval : Nat) (calls : List Call) :
    let m := ((Machine.create self start timeout lease heartbeatInterval).run calls).1
    m.Coherent ∧ ∀ metrics, Leadership.view { machine := m, metrics } = .fixed self m.leader m.term := by
  intro m
  have coherent : m.Coherent := (Machine.Coherent.create self start timeout lease heartbeatInterval).run calls
  have own : m.self = self := Machine.self_run _ calls
  exact ⟨coherent, fun metrics => own ▸ coherent.view_eq metrics⟩

end FleetCoordination.Election
