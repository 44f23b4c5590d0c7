import FleetCoordination.Proofs.Swarm.Grants
/-!
# Forged approvals

One faulty agent can have a proposal approved: it grants the proposal in the names of the
leader's peers, one after the other. None of them has granted it by then, and the leader
has only if its quorum is all of them.
-/
namespace FleetCoordination

/-! ## A round that reads one vote after the other -/

namespace Engine
variable {κ : Type} {e : Engine κ} {c : Surroundings} {r : Round κ} {v : ProposalVote}

theorem outcome_of_approved (cast : r.own.isSome = true) (h : r.ballot.status = .approved) (fallback : Bool)
    (now : Nat) : r.outcome? fallback now = some .approved := by
  obtain ⟨own, cast⟩ := Option.isSome_iff_exists.mp cast
  simp [Round.outcome?, Round.decided?, cast, h]

theorem outcome_of_pending {now : Nat} (h : r.ballot.status = .pending) (time : now < r.deadline) (fallback : Bool) :
    r.outcome? fallback now = none := by
  have undecided : r.decided? = none := by simp [Round.decided?, h]
  simp only [Round.outcome?, undecided]
  split
  · simp [Nat.not_le.mpr time]
  · rfl

/-- Whether an engine has one round, which waits for votes, and has applied nothing. -/
structure Reading (e : Engine κ) (c : Surroundings) (r : Round κ) : Prop where
  rounds : e.rounds = [r]
  cast : r.own.isSome = true
  inbox : r.inbox = []
  time : c.now < r.deadline
  new : e.ledger.executed.contains r.id = false
  idle : e.applications = []

/-- A round that has a vote to read. -/
def offered (r : Round κ) (v : ProposalVote) : Round κ := { r with inbox := [v] }

/-- A round that has read its only vote. -/
def heard (r : Round κ) (v : ProposalVote) : Round κ :=
  { r with inbox := [], ballot := r.ballot.record v.voter v.granted }

theorem round_only (h : e.rounds = [r]) : e.round? r.id = some r := by simp [round?, h]

theorem setRound_only {r' : Round κ} (h : e.rounds = [r]) (same : r.id = r'.id) : (e.setRound r').rounds = [r'] := by
  simp [setRound, h, same]

/-- A round whose request the bus has taken is left to its proposer. -/
theorem requestPosted_only (h : e.rounds = [r]) (waits : r.progress = .posting) :
    e.requestPosted r.id (.ok ()) = (e.setRound r.sent, [.evaluate (.proposer r.id) r.proposal.action]) := by
  simp only [requestPosted, round_only h, if_pos waits]

/-- A proposer's own vote that does not decide its round leaves it reading. -/
theorem reading_evaluated {j : Judgement} (rounds : e.rounds = [r]) (first : r.progress = .working)
    (inbox : r.inbox = []) (time : c.now < r.deadline) (new : e.ledger.executed.contains r.id = false)
    (idle : e.applications = []) (pending : (r.castOwn e.self j.granted).ballot.status = .pending) :
    (e.evaluated c (.proposer r.id) j).1.Reading c (r.castOwn e.self j.granted) := by
  have waits : e.evaluated c (.proposer r.id) j = (e.setRound (r.castOwn e.self j.granted), []) := by
    simp only [evaluated, round_only rounds, if_pos first]
    rw [advanceRound, outcome_of_pending pending time]
  rw [waits]
  exact ⟨setRound_only rounds rfl, rfl, inbox, time, new, idle⟩

theorem Reading.vote (h : e.Reading c r) (same : v.id = r.id) (room : 0 < r.alive) :
    e.vote v = e.setRound (offered r v) := by
  have places : r.inbox.length < r.room := by
    rw [h.inbox, Round.room, List.length_nil]
    omega
  have offer : r.offer v = offered r v := by
    rw [Round.offer, if_pos places, h.inbox]
    rfl
  simp only [Engine.vote, same, round_only h.rounds, offer]

theorem readVote_offered (h : e.rounds = [offered r v]) (cast : r.own.isSome = true) :
    e.readVote c r.id = (e.countVote (r.ballot.judge v.voter v.granted)).advanceRound c (heard r v) := by
  have found : e.round? r.id = some (offered r v) := round_only h
  simp only [Engine.readVote, found]
  rw [if_pos (show (offered r v).own.isSome = true from cast)]
  rfl

/-- A vote that does not decide the round leaves it reading. -/
theorem Reading.next (h : e.Reading c r) (same : v.id = r.id) (room : 0 < r.alive)
    (pending : (heard r v).ballot.status = .pending) : ((e.vote v).readVote c r.id).1.Reading c (heard r v) := by
  have waiting : (e.setRound (offered r v)).rounds = [offered r v] := setRound_only h.rounds rfl
  rw [h.vote same room, readVote_offered waiting h.cast, advanceRound, outcome_of_pending pending h.time]
  exact ⟨setRound_only waiting rfl, h.cast, rfl, h.time, h.new, h.idle⟩

theorem apply_handed (new : e.ledger.executed.contains r.id = false) (idle : e.applications = []) {action : String}
    (handed : action ≠ RoleReassignment.action) (params : Json) (purpose : Purpose κ) :
    (e.apply c r.id action params purpose).1.applications = [{ ticket := e.tickets, id := r.id, action, purpose }] := by
  simp only [apply, Ledger.start_of_new new, if_neg handed, idle, List.nil_append]

/-- A vote that approves the round hands its action to the executor. -/
theorem Reading.last (h : e.Reading c r) (same : v.id = r.id) (room : 0 < r.alive)
    (approved : (heard r v).ballot.status = .approved) (handed : r.proposal.action ≠ RoleReassignment.action) :
    ((e.vote v).readVote c r.id).1.applications =
      [{ ticket := e.tickets, id := r.id, action := r.proposal.action,
         purpose := .commit ((heard r v).result .approved) r.caller }] := by
  have waiting : (e.setRound (offered r v)).rounds = [offered r v] := setRound_only h.rounds rfl
  rw [h.vote same room, readVote_offered waiting h.cast, advanceRound,
    outcome_of_approved (r := heard r v) h.cast approved]
  let counted := (e.setRound (offered r v)).countVote (r.ballot.judge v.voter v.granted)
  exact apply_handed (e := counted.endRound (heard r v) .approved) h.new h.idle handed _ _

/-- An executor that succeeds has the submission answered. -/
theorem submitted_of_executed {a : Application κ} (only : e.applications = [a]) {result : ProposalResult} {caller : κ}
    (commit : a.purpose = .commit result caller) :
    .submitted caller (.ok result) ∈ (e.executed c a.ticket (.ok ())).2 := by
  have found : e.applications.find? (fun a' => a'.ticket = a.ticket) = some a := by simp [only]
  simp [executed, found, commit, settle, Except.map]

end Engine

namespace Swarm
open Engine
variable {κ : Type} {faulty : AgentId → Prop} {w : Swarm κ} {leader f : AgentId} {id : ProposalId} {own : Bool}
  {c : Surroundings} {r : Round κ}

/-! ## Runs in which faulty agents vote for others -/

/-- A grant in the name of an agent. -/
def borrowed (id : ProposalId) (voter : AgentId) : ProposalVote := { id, voter, granted := true, reason := none }

def letter (leader : AgentId) (id : ProposalId) (voter : AgentId) : Envelope :=
  .direct voter leader (.ofMillis 0) (.proposalVote (borrowed id voter))

/-- Whether a run has no votes but the leader's own and borrowed ones. -/
structure Stuffed (faulty : AgentId → Prop) (w : Swarm κ) (leader : AgentId) (id : ProposalId) (own : Bool) : Prop where
  reached : w.Reachable faulty
  bus : ∀ e ∈ w.bus, e.sender = leader ∨
    faulty e.sender ∧ ∃ voter, voter ≠ leader ∧ e.message = .proposalVote (borrowed id voter)
  judged : ∀ t ∈ w.pasts leader, ∀ j, t.input = .evaluated (.proposer id) j → j.granted = own

/-- In such a run nobody but the leader has granted, nor has a faulty agent named it. -/
theorem Stuffed.sincere (h : w.Stuffed faulty leader id own) {voter : AgentId}
    (sincere : w.Sincere faulty leader id voter) : voter = leader ∧ own = true := by
  obtain ⟨honest, granted⟩ := sincere
  by_cases same : voter = leader
  · subst same
    obtain ⟨t, ht, j, judged, yes⟩ := granted_own.mp granted
    exact ⟨rfl, (h.judged t ht j judged).symm.trans yes⟩
  · obtain ⟨e, he, rfl, -⟩ := (granted_other same).mp granted
    obtain own | ⟨corrupt, -⟩ := h.bus e he
    · exact (same own).elim
    · exact (honest corrupt).elim

theorem Stuffed.named (h : w.Stuffed faulty leader id own) (honest : ¬faulty leader) {voter : AgentId}
    (named : w.Named faulty id voter) : voter ≠ leader := by
  obtain ⟨e, he, corrupt, v, message, -, rfl, -⟩ := named
  obtain own | ⟨-, voter, other, forged⟩ := h.bus e he
  · exact (honest (own ▸ corrupt)).elim
  · rw [message] at forged
    cases forged
    exact other

theorem Stuffed.act (h : w.Stuffed faulty leader id own) {i : Input κ} (step : Step faulty w (w.act leader c i))
    (judged : ∀ j, i = .evaluated (.proposer id) j → j.granted = own) :
    (w.act leader c i).Stuffed faulty leader id own := by
  refine ⟨h.reached.step step, fun e he => ?_, fun t ht => ?_⟩
  · obtain old | new := mem_bus_act he
    · exact h.bus e old
    · exact .inl new
  · rw [pasts_act_self] at ht
    rcases List.mem_append.mp ht with old | last
    · exact h.judged t old
    · rw [List.mem_singleton.mp last]
      exact judged

theorem Stuffed.forge (h : w.Stuffed faulty leader id own) (corrupt : faulty f) {voter : AgentId}
    (other : voter ≠ leader) : (w.forge f (letter leader id voter)).Stuffed faulty leader id own := by
  refine ⟨h.reached.step (.forge _ corrupt), fun e he => ?_, h.judged⟩
  rcases List.mem_append.mp he with old | new
  · exact h.bus e old
  · rw [List.mem_singleton.mp new]
    exact .inr ⟨corrupt, voter, other, rfl⟩

/-- The leader has been sent a borrowed vote and has read it. -/
def borrow (w : Swarm κ) (f leader : AgentId) (c : Surroundings) (id : ProposalId) (voter : AgentId) : Swarm κ :=
  ((w.forge f (letter leader id voter)).act leader c (.vote (borrowed id voter))).act leader c (.readVote id)

theorem Stuffed.borrow (h : w.Stuffed faulty leader id own) (honest : ¬faulty leader) (corrupt : faulty f)
    {voter : AgentId} (other : voter ≠ leader) (caller : κ) :
    (w.borrow f leader c id voter).Stuffed faulty leader id own := by
  have forged := h.forge corrupt other
  have heard := forged.act (c := c) (i := .vote (borrowed id voter))
    (.deliver (e := { letter leader id voter with sender := f }) c caller honest
      (List.mem_append_right _ (List.mem_singleton_self _)) (by simp [letter, Envelope.isFor, Envelope.direct]) rfl)
    (by simp)
  exact heard.act (.turn c honest rfl) (by simp)

theorem engines_borrow (voter : AgentId) :
    (w.borrow f leader c id voter).engines leader =
      (((w.engines leader).vote (borrowed id voter)).readVote c id).1 := by
  rw [Swarm.borrow, engines_act_self, engines_act_self]
  rfl

theorem pasts_borrow (voter : AgentId) : w.pasts leader ⊆ (w.borrow f leader c id voter).pasts leader := by
  intro t ht
  simp [Swarm.borrow, Swarm.forge, ht]

/-- Whether a leader has answered a submission with an approval. -/
def Approved (w : Swarm κ) (leader : AgentId) (caller : κ) (id : ProposalId) (quorum : Nat) : Prop :=
  ∃ t ∈ w.pasts leader, ∃ result, .submitted caller (.ok result) ∈ t.outputs ∧ result.outcome = .approved ∧
    result.id = id ∧ result.quorum = quorum

/-- The executor of the leader ends the application of an approved proposal. -/
theorem Stuffed.ended (h : w.Stuffed faulty leader id own) (c : Surroundings) (honest : ¬faulty leader)
    {a : Application κ} (only : (w.engines leader).applications = [a]) {result : ProposalResult} {caller : κ}
    (commit : a.purpose = .commit result caller) (approved : result.outcome = .approved) :
    ∃ w' : Swarm κ, w'.Stuffed faulty leader id own ∧ w.pasts leader ⊆ w'.pasts leader ∧
      w'.Approved leader caller result.id result.quorum := by
  have ends : Step faulty w (w.act leader c (.executed a.ticket (.ok ()))) := .turn c honest rfl
  let t : Turn κ := ⟨w.engines leader, c, .executed a.ticket (.ok ())⟩
  refine ⟨_, h.act ends (by simp), fun t ht => by simp [ht], t, ?_, result, ?_⟩
  · rw [pasts_act_self]
    exact List.mem_append_right _ (List.mem_singleton_self _)
  · exact ⟨submitted_of_executed only commit, approved, rfl, rfl⟩

/-- As many borrowed votes as are missing have the round approved. -/
theorem Stuffed.approved (h : w.Stuffed faulty leader r.id own) (honest : ¬faulty leader) (corrupt : faulty f)
    (reading : (w.engines leader).Reading c r) (handed : r.proposal.action ≠ RoleReassignment.action)
    {names : List AgentId} (nodup : names.Nodup)
    (free : ∀ v ∈ names, v ≠ leader ∧ v ∈ r.ballot.eligible ∧ v ∉ r.ballot.voters) (some_ : names ≠ [])
    (enough : r.ballot.grants + names.length = r.ballot.quorum)
    (room : r.ballot.votes.length + names.length ≤ r.ballot.eligible.length) :
    ∃ w' : Swarm κ, w'.Stuffed faulty leader r.id own ∧ w.pasts leader ⊆ w'.pasts leader ∧
      w'.Approved leader r.caller r.id r.ballot.quorum := by
  induction names generalizing w r with
  | nil => exact (some_ rfl).elim
  | cons v rest ih =>
    obtain ⟨other, may, new⟩ := free v List.mem_cons_self
    have alive : 0 < r.alive := List.length_pos_of_mem may
    have stuffed := h.borrow (c := c) honest corrupt other r.caller
    have past : w.pasts leader ⊆ (w.borrow f leader c r.id v).pasts leader := pasts_borrow v
    have grants : (heard r (borrowed r.id v)).ballot.grants = r.ballot.grants + 1 := Ballot.grants_record may new
    have votes : (heard r (borrowed r.id v)).ballot.votes.length = r.ballot.votes.length + 1 :=
      Ballot.length_votes_record may new true
    have eligible : (heard r (borrowed r.id v)).ballot.eligible = r.ballot.eligible := Ballot.eligible_record ..
    have quorum : (heard r (borrowed r.id v)).ballot.quorum = r.ballot.quorum := Ballot.quorum_record ..
    rw [List.length_cons] at enough room
    cases rest with
    | nil =>
      have full : (heard r (borrowed r.id v)).ballot.status = .approved :=
        Ballot.approved_of_quorum (by rw [grants, quorum]; exact enough.ge)
      have last := reading.last rfl alive full handed
      rw [← engines_borrow (f := f)] at last
      obtain ⟨w', stuffed', past', approved⟩ := stuffed.ended c honest last rfl rfl
      exact ⟨w', stuffed', List.Subset.trans past past', quorum ▸ approved⟩
    | cons v' rest =>
      rw [List.length_cons] at enough room
      have open_ : (heard r (borrowed r.id v)).ballot.status = .pending :=
        Ballot.pending_of_open (by omega) (by rw [Ballot.outstanding, eligible, votes]; omega)
      have next := reading.next rfl alive open_
      rw [← engines_borrow (f := f)] at next
      have free' : ∀ u ∈ v' :: rest, u ≠ leader ∧ u ∈ (heard r (borrowed r.id v)).ballot.eligible ∧
          u ∉ (heard r (borrowed r.id v)).ballot.voters := by
        intro u hu
        obtain ⟨other', may', new'⟩ := free u (List.mem_cons_of_mem v hu)
        refine ⟨other', eligible ▸ may', fun old => ?_⟩
        obtain old | rfl := Ballot.mem_voters_record old
        · exact new' old
        · exact (List.nodup_cons.mp nodup).1 hu
      obtain ⟨w', stuffed', past', approved⟩ := ih (r := heard r (borrowed r.id v)) stuffed next handed nodup.of_cons
        free' (by simp) (by rw [grants, quorum, List.length_cons]; omega)
        (by rw [votes, eligible, List.length_cons]; omega)
      exact ⟨w', stuffed', List.Subset.trans past past', quorum ▸ approved⟩

/-! ## Proposals approved so -/

/-- Whether a proposal is put to the vote at once when it is submitted in a turn, and left to
the executor when it is approved. -/
structure Promising (s : Turn κ) (p : Proposal) : Prop where
  free : s.before.taken p.id = false
  leads : s.surroundings.leadership.isLeader = true
  present : s.before.settings.minAlivePeers ≤ (electorate s).card
  lasts : 0 < p.timeout
  handed : p.action ≠ RoleReassignment.action

theorem Promising.submit {s : Turn κ} {p : Proposal} (h : Promising s p) (caller : κ) :
    ∃ m, (s.before.submit s.surroundings caller p).1 =
      { s.before with metrics := m, rounds := s.before.rounds ++ [s.before.opening s.surroundings caller p] } := by
  have present : ¬(s.before.electorate s.surroundings).length < s.before.settings.minAlivePeers := by
    rw [← card_electorate]
    exact Nat.not_lt.mpr h.present
  simp only [Engine.submit, h.leads, present, h.free]
  exact ⟨_, rfl⟩

/-- The engine once a proposal is submitted and the bus has taken its request. -/
def called (s : Turn κ) (caller : κ) (p : Proposal) : Engine κ :=
  ((s.before.submit s.surroundings caller p).1.requestPosted p.id (.ok ())).1

theorem Promising.called_eq {s : Turn κ} {p : Proposal} (h : Promising s p) (caller : κ)
    (rounds : s.before.rounds = []) :
    ∃ m, called s caller p =
      { s.before with metrics := m, rounds := [(s.before.opening s.surroundings caller p).sent] } := by
  obtain ⟨m, submitted⟩ := h.submit caller
  rw [rounds, List.nil_append] at submitted
  let r := s.before.opening s.surroundings caller p
  let e : Engine κ := { s.before with metrics := m, rounds := [r] }
  have posted : e.requestPosted r.id (.ok ()) = (e.setRound r.sent, _) := requestPosted_only rfl rfl
  have only : (e.setRound r.sent).rounds = [r.sent] := setRound_only rfl rfl
  refine ⟨m, ?_⟩
  calc called s caller p
    _ = e.setRound r.sent := by rw [called, submitted]; exact congrArg Prod.fst posted
    _ = { e with rounds := [r.sent] } := congrArg (fun rounds => { e with rounds }) only

/-- The round of a proposal with the proposer's own vote. -/
def begun (s : Turn κ) (caller : κ) (p : Proposal) (own : Bool) : Round κ :=
  (s.before.opening s.surroundings caller p).castOwn s.before.self own

theorem Promising.reading {s : Turn κ} {p : Proposal} {caller : κ} (h : Promising s p) (rounds : s.before.rounds = [])
    (idle : s.before.applications = []) (pending : (begun s caller p own).ballot.status = .pending) :
    ((called s caller p).evaluated s.surroundings (.proposer p.id) { granted := own }).1.Reading s.surroundings
      (begun s caller p own) := by
  obtain ⟨m, eq⟩ := h.called_eq caller rounds
  have time : s.surroundings.now < s.surroundings.now + p.timeout := Nat.lt_add_of_pos_right h.lasts
  have new : s.before.ledger.executed.contains p.id = false := (Bool.or_eq_false_iff.mp h.free).2
  rw [eq]
  let r := (s.before.opening s.surroundings caller p).sent
  exact reading_evaluated (r := r) (j := { granted := own }) rfl rfl rfl time new idle pending

section Begun
variable (s : Turn κ) (caller : κ) (p : Proposal) (own : Bool)

theorem votes_begun : (begun s caller p own).ballot.votes = [(s.before.self, own)] := by
  have may : s.before.self ∈ (s.before.opening s.surroundings caller p).ballot.eligible := by
    simp [opening, Ballot.open_, Engine.electorate]
  exact congrArg Ballot.votes (Ballot.record_of_new may (by simp [opening, Ballot.open_, Ballot.voters]) own)

theorem eligible_begun :
    (begun s caller p own).ballot.eligible = (s.before.opening s.surroundings caller p).ballot.eligible :=
  Ballot.eligible_record ..

theorem quorum_begun : (begun s caller p own).ballot.quorum = needed s p :=
  (Ballot.quorum_record ..).trans (quorum_opening s caller p)

theorem length_begun : (begun s caller p own).ballot.eligible.length = (electorate s).card :=
  (congrArg List.length (eligible_begun s caller p own)).trans (length_opening s caller p)

theorem grants_begun : (begun s caller p own).ballot.grants = own.toNat := by
  rw [Ballot.grants, votes_begun]
  cases own <;> rfl

end Begun

/-- Whether a proposal needs the grants of all agents that may vote. -/
def needsAll (s : Turn κ) (p : Proposal) : Bool := decide (needed s p = (electorate s).card)

section Missing
variable {s : Turn κ} (caller : κ) (p : Proposal) (peers : 2 ≤ (electorate s).card)
include peers

/-- If the leader grants only when it must, some grants of its peers are missing. -/
theorem missing : (needsAll s p).toNat < needed s p ∧ needed s p < (needsAll s p).toNat + (electorate s).card := by
  have least : 1 ≤ needed s p := Quorum.one_le_size ..
  have most : needed s p ≤ (electorate s).card := Quorum.size_le _ (by omega)
  cases h : needsAll s p <;> simp [needsAll] at h ⊢ <;> omega

theorem pending_begun : (begun s caller p (needsAll s p)).ballot.status = .pending := by
  have := missing p peers
  refine Ballot.pending_of_open (by rw [grants_begun, quorum_begun]; omega) ?_
  rw [Ballot.outstanding, grants_begun, quorum_begun, votes_begun, length_begun, List.length_singleton]
  omega

/-- There are peers enough to make up for the missing grants. -/
theorem exists_missing : ∃ names : List AgentId, names.Nodup ∧ (needsAll s p).toNat + names.length = needed s p ∧
    ∀ v ∈ names, v ≠ s.before.self ∧ v ∈ electorate s := by
  have := missing p peers
  have nodup : (s.before.electorate s.surroundings).Nodup := Text.nodup_sorted _
  have self : s.before.self ∈ s.before.electorate s.surroundings := by simp [Engine.electorate]
  let peers := (s.before.electorate s.surroundings).erase s.before.self
  refine ⟨peers.take (needed s p - (needsAll s p).toNat), ?_, ?_, ?_⟩
  · exact (nodup.erase _).sublist (List.take_sublist ..)
  · rw [List.length_take, List.length_erase_of_mem self, ← card_electorate]
    omega
  · intro v hv
    obtain ⟨other, may⟩ := nodup.mem_erase_iff.mp (List.mem_of_mem_take hv)
    exact ⟨other, List.mem_toFinset.mpr may⟩

end Missing

section Started
variable (settings : ConsensusSettings) (fallback : Bool) (leader : AgentId) (c : Surroundings) (caller : κ)
  (p : Proposal) (own : Bool)

/-- A swarm whose leader has submitted a proposal, called for votes and judged it. -/
def started : Swarm κ :=
  let w : Swarm κ := { engines := fun a => create a settings fallback }
  ((w.act leader c (.submit caller p)).act leader c (.posted (.proposal p.id) (.ok ()))).act leader c
    (.evaluated (.proposer p.id) { granted := own })

theorem mem_pasts_started :
    ⟨create leader settings fallback, c, .submit caller p⟩ ∈
      (started settings fallback leader c caller p own).pasts leader := by
  simp [started]

theorem engines_started :
    (started settings fallback leader c caller p own).engines leader =
      ((called ⟨create leader settings fallback, c, .submit caller p⟩ caller p).evaluated c (.proposer p.id)
        { granted := own }).1 := by
  rw [started, engines_act_self, engines_act_self, engines_act_self]
  rfl

theorem stuffed_started {leader : AgentId} (honest : ¬faulty leader) :
    (started settings fallback leader c caller p own).Stuffed faulty leader p.id own := by
  have fresh : Reachable faulty ({ engines := fun a => create a settings fallback } : Swarm κ) :=
    .start ⟨rfl, fun a => ⟨rfl, settings, fallback, rfl⟩⟩
  have start : Stuffed faulty ({ engines := fun a => create a settings fallback } : Swarm κ) leader p.id own :=
    ⟨fresh, by simp, by simp⟩
  have submitted := start.act (c := c) (i := .submit caller p) (.turn c honest rfl) (by simp)
  have called := submitted.act (c := c) (i := .posted (.proposal p.id) (.ok ())) (.turn c honest rfl) (by simp)
  refine called.act (.turn c honest rfl) ?_
  rintro j h
  cases h
  rfl

end Started

variable (faulty) in
/-- One faulty agent has a promising proposal approved, and nobody else but perhaps the
leader has granted it. -/
theorem approved_by_forgery (honest : ¬faulty leader) (corrupt : faulty f) {s : Turn κ} {caller : κ} {p : Proposal}
    {settings : ConsensusSettings} {fallback : Bool} (fresh : s.before = create leader settings fallback)
    (submits : s.input = .submit caller p) (promising : Promising s p) (peers : 2 ≤ (electorate s).card) :
    ∃ w : Swarm κ, w.Reachable faulty ∧ s ∈ w.pasts leader ∧ w.Approved leader caller p.id (needed s p) ∧
      (∀ v, w.Named faulty p.id v → v ≠ leader) ∧
      ∀ v, w.Sincere faulty leader p.id v → v = leader ∧ needed s p = (electorate s).card := by
  have self : s.before.self = leader := by rw [fresh]; rfl
  let own := needsAll s p
  let r := begun s caller p own
  let w := started settings fallback leader s.surroundings caller p own
  have votes : r.ballot.votes = [(leader, own)] := self ▸ votes_begun s caller p own
  have eligible : r.ballot.eligible.length = (electorate s).card := length_begun s caller p own
  have grants : r.ballot.grants = own.toNat := grants_begun s caller p own
  have quorum : r.ballot.quorum = needed s p := quorum_begun s caller p own
  have some_ : own.toNat < needed s p ∧ needed s p < own.toNat + (electorate s).card := missing p peers
  obtain ⟨names, nodup, enough, among⟩ := exists_missing p peers
  have enough : own.toNat + names.length = needed s p := enough
  have free : ∀ v ∈ names, v ≠ leader ∧ v ∈ r.ballot.eligible ∧ v ∉ r.ballot.voters := by
    intro v hv
    obtain ⟨other, may⟩ := among v hv
    rw [self] at other
    refine ⟨other, ?_, by simpa [Ballot.voters, votes] using other⟩
    rw [eligible_begun]
    exact (mem_opening s caller p).mpr may
  have reading : (w.engines leader).Reading s.surroundings r := by
    have rounds : s.before.rounds = [] := by rw [fresh]; rfl
    have idle : s.before.applications = [] := by rw [fresh]; rfl
    have reading := promising.reading rounds idle (pending_begun caller p peers)
    rw [engines_started, ← fresh]
    exact reading
  have stuffed : w.Stuffed faulty leader r.id own :=
    stuffed_started settings fallback s.surroundings caller p own honest
  obtain ⟨w', stuffed', past, approved⟩ := stuffed.approved honest corrupt reading promising.handed nodup free
    (by rintro rfl; rw [List.length_nil] at enough; omega) (by rw [grants, quorum, enough])
    (by rw [votes, eligible, List.length_singleton]; omega)
  have submitted : s ∈ w.pasts leader := by
    obtain ⟨before, c, i⟩ := s
    obtain rfl : before = create leader settings fallback := fresh
    obtain rfl : i = .submit caller p := submits
    exact mem_pasts_started settings fallback leader c caller p own
  refine ⟨w', stuffed'.reached, past submitted, quorum ▸ approved, fun v => stuffed'.named honest, fun v sincere => ?_⟩
  obtain ⟨same, all⟩ := stuffed'.sincere sincere
  exact ⟨same, of_decide_eq_true all⟩

variable (faulty) in
/-- So one faulty agent is enough for a run that has fewer sincere grants than the quorum less
the share of the faulty agents. -/
theorem exists_forged_approval [DecidablePred faulty] (honest : ¬faulty leader) (corrupt : faulty f) {s : Turn κ}
    {caller : κ} {p : Proposal} {settings : ConsensusSettings} {fallback : Bool}
    (fresh : s.before = create leader settings fallback) (submits : s.input = .submit caller p)
    (promising : Promising s p) (few : ((electorate s).filter faulty).card < needed s p)
    (peers : ((electorate s).filter faulty).card + 2 ≤ (electorate s).card) :
    ∃ w : Swarm κ, w.Reachable faulty ∧ s ∈ w.pasts leader ∧ w.Approved leader caller p.id (needed s p) ∧
      ¬w.Honestly faulty leader p.id (electorate s) (needed s p - ((electorate s).filter faulty).card) := by
  obtain ⟨w, reached, submitted, approved, -, sincere⟩ :=
    approved_by_forgery faulty honest corrupt fresh submits promising (by omega)
  refine ⟨w, reached, submitted, approved, ?_⟩
  rintro ⟨granters, -, enough, granted⟩
  have only : granters.card ≤ 1 := Finset.card_le_one.mpr fun a ha b hb =>
    (sincere a (granted a ha)).1.trans (sincere b (granted b hb)).1.symm
  obtain ⟨v, hv⟩ := Finset.card_pos.mp (by omega : 0 < granters.card)
  have all := (sincere v (granted v hv)).2
  omega

end Swarm

end FleetCoordination
