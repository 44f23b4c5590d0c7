import FleetCoordination.Proofs.Election.Cluster
/-!
# Election safety

A vote on its way to a candidate was granted to that candidate in the vote's term, and
the supporters a machine has counted are itself and agents that granted it their vote. A
win rests on a majority of them; two majorities share an agent, and no agent supports two.
-/
namespace FleetCoordination.Election

/-! ## Counted votes -/

/-- The counted supporters are agents of the set, and all but the machine itself have
granted it their vote. `granted v t` tells whether `v` has done so in term `t`. -/
def Machine.Backed (agents : Finset AgentId) (granted : AgentId → Term → Prop) (m : Machine) : Prop :=
  m.phase ≠ .follower →
    m.supporters.Nodup ∧ ∀ v ∈ m.supporters, v ∈ agents ∧ (v = m.self ∨ granted v m.term)

/-- Whether an input reports only what there is: a vote was granted, all agents are alive. -/
def Input.Vouched (agents : Finset AgentId) (granted : AgentId → Term → Prop) : Input → Prop
  | .tick alive _ => Lists agents alive
  | .vote m alive => Lists agents alive ∧ granted m.voter m.term
  | .voteRequest _ _ => True
  | .heartbeat _ _ => True

section Backed
variable {agents : Finset AgentId} {granted : AgentId → Term → Prop} {now : Nat} {i : Input} {m m' : Machine}
  {outputs : List Output}

theorem Machine.Backed.addSupporter {v : AgentId} (h : m.Backed agents granted) (member : v ∈ agents)
    (voted : granted v m.term) : (m.addSupporter v).Backed agents granted := by
  unfold Machine.addSupporter
  split
  · exact h
  · next new =>
    intro runs
    obtain ⟨nodup, backed⟩ := h runs
    refine ⟨List.nodup_append.mpr ⟨nodup, by simp, by grind⟩, fun u hu => ?_⟩
    rcases List.mem_append.mp hu with old | last
    · exact backed u old
    · rw [List.mem_singleton.mp last]
      exact ⟨member, .inr voted⟩

theorem Move.backed (move : Move now i m outputs m') (h : m.Backed agents granted) (member : m.self ∈ agents)
    (vouched : i.Vouched agents granted) : m'.Backed agents granted := by
  cases move with
  | beat => exact h
  | stand => exact fun _ => ⟨List.nodup_singleton _, by simp [Machine.candidacy, member]⟩
  | win runs => exact fun _ => h (by simp [runs])
  | join current _ counts => exact h.addSupporter ((vouched.1.2 _).mp counts) (current ▸ vouched.2)
  | adopt | support | follow => exact fun free => (free rfl).elim

theorem Moves.backed (moves : Moves now i m outputs m') (h : m.Backed agents granted) (member : m.self ∈ agents)
    (vouched : i.Vouched agents granted) : m'.Backed agents granted := by
  induction moves with
  | none => exact h
  | cons move _ ih => exact ih (move.backed h member vouched) (move.self_eq ▸ member)

end Backed

/-! ## Wins and votes of a step -/

theorem Machine.won_winIfMajority {m : Machine} {now : Nat} {alive : List AgentId} {term : Term}
    (h : term ∈ won (m.winIfMajority now alive).2) :
    (m.winIfMajority now alive).1.phase = .leader ∧ (m.winIfMajority now alive).1.term = term ∧
      (m.winIfMajority now alive).1.hasMajority alive := by
  unfold winIfMajority at h ⊢
  split at h
  · next majority =>
    rw [if_pos majority]
    exact ⟨rfl, (List.mem_singleton.mp h).symm, majority⟩
  · cases h

theorem Machine.won_adopt (m : Machine) (term : Term) : won (m.adopt term).2 = [] := won_steppedDown ..

theorem Machine.won_catchUp (m : Machine) (term : Term) : won (m.catchUp term).2 = [] := by
  unfold catchUp
  split
  · exact m.won_adopt term
  · rfl

theorem Machine.won_onVoteRequest (m : Machine) (request : VoteRequest) (now timeout : Nat) :
    won (m.onVoteRequest request now timeout).2 = [] := by
  unfold onVoteRequest
  split
  · rfl
  · dsimp only
    split
    · rw [won_append, won_catchUp]
      rfl
    · exact m.won_catchUp _

theorem Machine.won_onHeartbeat (m : Machine) (beat : Heartbeat) (now timeout : Nat) :
    won (m.onHeartbeat beat now timeout).2 = [] := by
  unfold onHeartbeat
  split
  · exact won_steppedDown ..
  · rfl
  · rfl

/-- A step that wins leaves a leader with the majority it has won by. -/
theorem Machine.won_step {m : Machine} {now : Nat} {i : Input} {s : Machine × List Output} {term : Term}
    (h : m.step now i = some s) (wins : term ∈ won s.2) :
    s.1.phase = .leader ∧ s.1.term = term ∧ s.1.hasMajority i.alive := by
  cases i with
  | tick alive timeout =>
    obtain rfl | ⟨-, rfl⟩ | ⟨-, -, rfl⟩ := tick_cases h
    · cases wins
    · cases wins
    · exact won_winIfMajority wins
  | voteRequest request timeout =>
    obtain rfl := Option.some.inj h
    simp [won_onVoteRequest] at wins
  | vote vote alive =>
    obtain rfl := Option.some.inj h
    unfold onVote at wins ⊢
    split at wins
    · rw [won_adopt] at wins
      cases wins
    · next notHigher =>
      split at wins
      · cases wins
      · next counts =>
        rw [if_neg notHigher, if_neg counts]
        exact won_winIfMajority wins
  | heartbeat beat timeout =>
    obtain rfl := Option.some.inj h
    simp [won_onHeartbeat] at wins

theorem Machine.won_call {m : Machine} {now : Nat} {i : Input} {term : Term} (h : term ∈ won (m.call now i).2) :
    (m.call now i).1.phase = .leader ∧ (m.call now i).1.term = term ∧ (m.call now i).1.hasMajority i.alive := by
  rcases m.call_cases now i with panic | step
  · rw [panic] at h
    cases h
  · exact won_step step h

theorem Output.of_messageFor {sender recipient : AgentId} {o : Output} {m : Message}
    (h : o.messageFor? sender recipient = some m) : o = .broadcast m ∨ o = .reply recipient m := by
  cases o with
  | broadcast m' =>
    simp only [messageFor?] at h
    split at h
    · cases h
    · exact .inl (congrArg _ (Option.some.inj h))
  | reply target m' =>
    simp only [messageFor?] at h
    split at h
    · next same => exact .inr (same ▸ congrArg _ (Option.some.inj h))
    · cases h
  | becameLeader | steppedDown | voteGranted => cases h

/-- A vote that is sent is the machine's own and was granted to the one it is sent to. -/
theorem Move.vote_granted {now : Nat} {i : Input} {m m' : Machine} {outputs : List Output}
    (move : Move now i m outputs m') {o : Output} (sent : o ∈ outputs) {recipient : AgentId} {vote : ElectionVote}
    (meant : o.messageFor? m.self recipient = some (.electionVote vote)) :
    vote.voter = m.self ∧ .voteGranted recipient vote.term ∈ outputs := by
  have form := Output.of_messageFor meant
  cases move with
  | support =>
    rcases form with rfl | rfl <;> simp [Machine.support] at sent ⊢
    obtain ⟨rfl, rfl⟩ := sent
    exact ⟨rfl, rfl, rfl⟩
  | beat | stand | win =>
    rcases form with rfl | rfl <;> simp [Machine.win, Machine.announcement, Machine.plea] at sent
  | join => cases sent
  | adopt | follow =>
    rcases form with rfl | rfl <;> simp [Machine.adopt, Machine.follow] at sent

theorem Moves.vote_granted {now : Nat} {i : Input} {m m' : Machine} {outputs : List Output}
    (moves : Moves now i m outputs m') {o : Output} (sent : o ∈ outputs) {recipient : AgentId} {vote : ElectionVote}
    (meant : o.messageFor? m.self recipient = some (.electionVote vote)) :
    vote.voter = m.self ∧ .voteGranted recipient vote.term ∈ outputs := by
  induction moves with
  | none => cases sent
  | cons move _ ih =>
    rcases List.mem_append.mp sent with first | rest
    · obtain ⟨voter, granted⟩ := move.vote_granted first meant
      exact ⟨voter, List.mem_append_left _ granted⟩
    · rw [← move.self_eq] at meant ⊢
      obtain ⟨voter, granted⟩ := ih rest meant
      exact ⟨voter, List.mem_append_right _ granted⟩

/-! ## The invariant of a cluster -/

/-- Whether `p` holds of every entry of a log and the entries before it. -/
def Always {α : Type} (p : List α → α → Prop) (log : List α) : Prop :=
  ∀ before x after, log = before ++ x :: after → p before x

theorem Always.append {α : Type} {p : List α → α → Prop} {log new : List α}
    (mono : ∀ before more x, p before x → p (before ++ more) x) (h : Always p log) (h' : ∀ x ∈ new, p log x) :
    Always p (log ++ new) := by
  intro before x after e
  rcases List.append_eq_append_iff.mp e with ⟨more, rfl, e'⟩ | ⟨rest, rfl, e'⟩
  · exact mono _ _ _ (h' x (e' ▸ by simp))
  · cases rest with
    | nil =>
      obtain rfl : x :: after = new := e'
      simpa using h' x List.mem_cons_self
    | cons y rest =>
      cases e'
      exact h _ _ rest rfl

/-- Whether a win rests on a majority of agents that granted their votes before it, the
winner itself apart. -/
def Earned (agents : Finset AgentId) (before : List Emission) (e : Emission) : Prop :=
  ∀ term, e.Wins term → e.machine.supporters.Nodup ∧ agents.card < 2 * e.machine.supporters.length ∧
    ∀ v ∈ e.machine.supporters, v ∈ agents ∧ (v = e.agent ∨ Granted before v e.agent term)

theorem Earned.append {agents : Finset AgentId} {before : List Emission} {e : Emission} (more : List Emission)
    (h : Earned agents before e) : Earned agents (before ++ more) e := fun term wins =>
  have ⟨nodup, majority, backed⟩ := h term wins
  ⟨nodup, majority, fun v hv => ⟨(backed v hv).1, (backed v hv).2.imp_right (Granted.append · more)⟩⟩

structure Cluster.Sound (agents : Finset AgentId) (w : Cluster) : Prop where
  self : ∀ a ∈ agents, (w.machines a).self = a
  faithful : ∀ a ∈ agents, (w.machines a).Faithful (w.outputs a)
  backed : ∀ a ∈ agents, (w.machines a).Backed agents fun v term => Granted w.log v a term
  /-- A vote under way was granted to the one it is meant for. -/
  sent : ∀ e ∈ w.log, ∀ recipient vote, e.output.messageFor? e.agent recipient = some (.electionVote vote) →
    Granted w.log vote.voter recipient vote.term
  members : ∀ e ∈ w.log, e.agent ∈ agents
  earned : Always (Earned agents) w.log

theorem Machine.Backed.mono {agents : Finset AgentId} {granted granted' : AgentId → Term → Prop} {m : Machine}
    (h : m.Backed agents granted) (le : ∀ v term, granted v term → granted' v term) : m.Backed agents granted' :=
  fun free => ⟨(h free).1, fun v hv => ⟨((h free).2 v hv).1, ((h free).2 v hv).2.imp_right (le v _)⟩⟩

theorem Lists.length {agents : Finset AgentId} {alive : List AgentId} (h : Lists agents alive) :
    alive.length = agents.card := by
  rw [← List.toFinset_card_of_nodup h.1]
  congr 1
  ext a
  rw [List.mem_toFinset, h.2]

theorem Machine.card_lt_of_hasMajority {agents : Finset AgentId} {alive : List AgentId} {m : Machine}
    (lists : Lists agents alive) (member : m.self ∈ agents) (h : m.hasMajority alive) :
    agents.card < 2 * m.supporters.length := by
  have electorate : m.electorate alive = agents.card := by
    rw [Machine.electorate, if_pos ((lists.2 _).mpr member), lists.length]
  have majority := of_decide_eq_true h
  rw [electorate, Quorum.majority] at majority
  omega

namespace Cluster
variable {agents : Finset AgentId} {w w' : Cluster} {a : AgentId} {now : Nat} {i : Input}

theorem mem_emitted {e : Emission} :
    e ∈ w.emitted a now i ↔ e.agent = a ∧ e.machine = ((w.machines a).call now i).1 ∧
      e.output ∈ ((w.machines a).call now i).2 := by
  simp only [emitted, List.mem_map]
  constructor
  · rintro ⟨o, ho, rfl⟩
    exact ⟨rfl, rfl, ho⟩
  · rintro ⟨rfl, h, ho⟩
    exact ⟨_, ho, by rw [← h]⟩

/-- What a win of a step rests on was there before the step. -/
theorem Sound.earned_emitted (h : w.Sound agents) (member : a ∈ agents)
    (vouched : i.Vouched agents fun v term => Granted w.log v a term) :
    ∀ e ∈ w.emitted a now i, Earned agents w.log e := by
  intro e he term wins
  obtain ⟨agent, machine, output⟩ := mem_emitted.mp he
  obtain ⟨wait, wins⟩ := wins
  have self : ((w.machines a).call now i).1.self = a := ((w.machines a).self_call now i).trans (h.self a member)
  obtain ⟨leads, rfl, majority⟩ := Machine.won_call (mem_won.mpr ⟨wait, wins ▸ output⟩)
  have backed := ((w.machines a).moves_call now i).backed (h.backed a member) ((h.self a member).symm ▸ member) vouched
  obtain ⟨nodup, supporters⟩ := backed (by simp [leads])
  rw [machine, agent]
  refine ⟨nodup, ?_, by simpa only [self] using supporters⟩
  have lists : Lists agents i.alive := by
    cases i with
    | tick => exact vouched
    | vote => exact vouched.1
    | voteRequest | heartbeat =>
      have won := mem_won.mpr ⟨wait, wins ▸ output⟩
      simp [Machine.call, Machine.step, Machine.won_onVoteRequest, Machine.won_onHeartbeat] at won
  exact Machine.card_lt_of_hasMajority lists (self.symm ▸ member) majority

theorem Sound.act (h : w.Sound agents) (member : a ∈ agents)
    (vouched : i.Vouched agents fun v term => Granted w.log v a term) : (w.act a now i).Sound agents where
  self b hb := by
    by_cases same : b = a
    · subst same
      rw [machines_act_self, Machine.self_call, h.self b hb]
    · rw [machines_act_ne same, h.self b hb]
  faithful b hb := by
    by_cases same : b = a
    · subst same
      rw [machines_act_self, outputs_act_self]
      exact (h.faithful b hb).call now i
    · rw [machines_act_ne same, outputs_act_ne same]
      exact h.faithful b hb
  backed b hb := by
    have granted : ∀ v term, Granted w.log v b term → Granted (w.act a now i).log v b term :=
      fun _ _ g => g.append _
    by_cases same : b = a
    · subst same
      rw [machines_act_self]
      exact (((w.machines b).moves_call now i).backed (h.backed b hb) ((h.self b hb).symm ▸ hb) vouched).mono granted
    · rw [machines_act_ne same]
      exact (h.backed b hb).mono granted
  sent e he recipient vote meant := by
    rcases List.mem_append.mp he with old | new
    · exact (h.sent e old recipient vote meant).append _
    · obtain ⟨agent, machine, output⟩ := mem_emitted.mp new
      rw [agent, ← h.self a member] at meant
      obtain ⟨voter, granted⟩ := ((w.machines a).moves_call now i).vote_granted output meant
      refine ⟨⟨a, e.machine, _⟩, List.mem_append_right _ (mem_emitted.mpr ⟨rfl, machine, granted⟩), ?_, rfl⟩
      rw [voter, h.self a member]
  members e he := by
    rcases List.mem_append.mp he with old | new
    · exact h.members e old
    · exact (mem_emitted.mp new).1 ▸ member
  earned := h.earned.append (fun _ more _ => Earned.append more) (h.earned_emitted member vouched)

theorem Sound.step (h : w.Sound agents) (step : Step agents w w') : w'.Sound agents := by
  cases step with
  | tick now timeout member lists => exact h.act member lists
  | @deliver a alive e m i now timeout member lists sent meant input =>
    refine h.act member ?_
    cases m with
    | electionVote vote =>
      cases input
      exact ⟨lists, h.sent e sent a vote meant⟩
    | voteRequest | heartbeat => cases input; trivial
    | proposalRequest | proposalVote | approval | propagate | ack => cases input

theorem Sound.start (fresh : w.Fresh agents) : w.Sound agents := by
  obtain ⟨empty, created⟩ := fresh
  have outputs a : w.outputs a = [] := by simp [outputs, empty]
  refine ⟨fun a ha => ?_, fun a ha => ?_, fun a ha => ?_, ?_, ?_, ?_⟩
  · obtain ⟨_, _, _, _, e⟩ := created a ha
    rw [e, Machine.create]
  · obtain ⟨_, _, _, _, e⟩ := created a ha
    rw [e, outputs]
    exact .create ..
  · obtain ⟨_, _, _, _, e⟩ := created a ha
    rw [e]
    exact fun free => (free rfl).elim
  · simp [empty]
  · simp [empty]
  · intro before x after e
    simp [empty] at e

theorem Reachable.sound (h : Reachable agents w) : w.Sound agents := by
  induction h with
  | start fresh => exact .start fresh
  | step _ step ih => exact ih.step step

/-- Two majorities share an agent, and it supports one of the winners only. -/
theorem Sound.winner_unique (h : w.Sound agents) {e e' : Emission} (he : e ∈ w.log) (he' : e' ∈ w.log) {term : Term}
    (wins : e.Wins term) (wins' : e'.Wins term) : e.agent = e'.agent := by
  have supports {e v} (he : e ∈ w.log) (wins : e.Wins term) (hv : v ∈ e.machine.supporters) :
      v ∈ agents ∧ Supports v (w.outputs v) e.agent term := by
    obtain ⟨before, after, split⟩ := List.append_of_mem he
    obtain ⟨-, -, backed⟩ := h.earned before e after split term wins
    obtain ⟨member, rfl | granted⟩ := backed v hv
    · exact ⟨member, .inr ⟨rfl, mem_won_outputs.mpr ⟨e, he, rfl, wins⟩⟩⟩
    · refine ⟨member, .inl (mem_votes_outputs.mpr ?_)⟩
      rw [split]
      exact granted.append _
  have majority {e} (he : e ∈ w.log) (wins : e.Wins term) :
      e.machine.supporters.toFinset ⊆ agents ∧ agents.card < 2 * e.machine.supporters.toFinset.card := by
    obtain ⟨before, after, split⟩ := List.append_of_mem he
    obtain ⟨nodup, majority, -⟩ := h.earned before e after split term wins
    rw [List.toFinset_card_of_nodup nodup]
    exact ⟨fun v hv => (supports he wins (List.mem_toFinset.mp hv)).1, majority⟩
  obtain ⟨sub, card⟩ := majority he wins
  obtain ⟨sub', card'⟩ := majority he' wins'
  obtain ⟨v, hv⟩ := Finset.inter_nonempty_of_card_lt_card_add_card sub sub' (by omega)
  obtain ⟨left, right⟩ := Finset.mem_inter.mp hv
  obtain ⟨member, first⟩ := supports he wins (List.mem_toFinset.mp left)
  obtain ⟨-, second⟩ := supports he' wins' (List.mem_toFinset.mp right)
  rw [← h.self v member] at first second
  exact (h.faithful v member).unique (by simpa only [h.self v member] using first)
    (by simpa only [h.self v member] using second)

end Cluster

/-- A term is won by one agent at most and once, and by a majority: the supporters of the
winner, itself and agents that have granted it their votes for the term. -/
theorem election_safety {agents : Finset AgentId} {w : Cluster} (h : w.Reachable agents) :
    (∀ e ∈ w.log, ∀ e' ∈ w.log, ∀ term, e.Wins term → e'.Wins term → e.agent = e'.agent) ∧
    (∀ a, (won (w.outputs a)).Nodup) ∧
    ∀ before e after term, w.log = before ++ e :: after → e.Wins term →
      e.machine.supporters.Nodup ∧ agents.card < 2 * e.machine.supporters.length ∧
      ∀ v ∈ e.machine.supporters, v ∈ agents ∧ (v = e.agent ∨ Granted before v e.agent term) := by
  have sound := h.sound
  refine ⟨fun e he e' he' term => sound.winner_unique he he', fun a => ?_,
    fun before e after term split => sound.earned before e after split term⟩
  by_cases member : a ∈ agents
  · exact (sound.faithful a member).wonOnce
  · have silent : w.outputs a = [] := by
      simp only [Cluster.outputs, List.map_eq_nil_iff, List.filter_eq_nil_iff, decide_eq_true_eq]
      exact fun e he same => member (same ▸ sound.members e he)
    simp [silent, won]

theorem lists_trio : Lists {"A", "B", "C"} ["A", "B", "C"] := ⟨by decide, by simp⟩

def fresh : Cluster := { machines := fun a => Machine.create a 0 0 10000 1000 }

/-- Two candidates of one term: the first takes back its own vote for the second, which wins. -/
theorem election_safety_duel : ∃ w : Cluster, w.Reachable {"A", "B", "C"} ∧
    (∃ e ∈ w.log, e.agent = "B" ∧ e.Wins 1) ∧ ∀ e ∈ w.log, e.Wins 1 → e.agent = "B" := by
  have start : Cluster.Reachable {"A", "B", "C"} fresh := .start ⟨rfl, fun a _ => ⟨0, 0, 10000, 1000, rfl⟩⟩
  have both := (start.step (.tick (a := "A") 1 200 (by decide) lists_trio)).step
    (.tick (a := "B") 1 200 (by decide) lists_trio)
  have yields := both.step
    (.deliver (a := "A") 2 200 (by decide) lists_trio (List.mem_of_getElem? (i := 1) rfl) rfl rfl)
  have wins := yields.step
    (.deliver (a := "B") 3 200 (by decide) lists_trio (List.mem_of_getElem? (i := 3) rfl) rfl rfl)
  refine ⟨_, wins, ⟨_, List.mem_of_getElem? (i := 4) rfl, rfl, 2, rfl⟩, fun e he won => ?_⟩
  exact (election_safety wins).1 e he _ (List.mem_of_getElem? (i := 4) rfl) 1 won ⟨2, rfl⟩

end FleetCoordination.Election
