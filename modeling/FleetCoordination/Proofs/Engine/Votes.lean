import FleetCoordination.Proofs.Ballot
import FleetCoordination.Proofs.Engine.History
/-!
# Votes behind an approval

A round counts a vote for each agent that a vote named or, for the proposer, its own
evaluation. An approval therefore rests on a quorum of agents of its submission, each with
a grant in the proposer's past.
-/
namespace FleetCoordination.Engine
variable {κ : Type}

/-- Whether the past of an engine holds a grant of an agent for a proposal: a judgement of
its own evaluator, or a vote that names the agent. -/
def Grant (self : AgentId) (past : List (Turn κ)) (id : ProposalId) (voter : AgentId) : Prop :=
  if voter = self then ∃ t ∈ past, ∃ j, t.input = .evaluated (.proposer id) j ∧ j.granted = true
  else ∃ t ∈ past, ∃ v, t.input = .vote v ∧ v.id = id ∧ v.voter = voter ∧ v.granted = true

/-- Whether a ballot is that of a proposal that a caller has submitted. -/
def Opened (past : List (Turn κ)) (caller : κ) (p : Proposal) (b : Ballot) : Prop :=
  ∃ t ∈ past, t.input = .submit caller p ∧
    b.eligible = (t.before.opening t.surroundings caller p).ballot.eligible ∧
    b.quorum = (t.before.opening t.surroundings caller p).ballot.quorum

/-- Whether a result, if it is an approval, answers a submission and rests on a quorum of
grants of eligible agents. -/
def Backed (self : AgentId) (past : List (Turn κ)) (caller : κ) (result : ProposalResult) : Prop :=
  result.outcome = .approved → ∃ p b, p.id = result.id ∧ Opened past caller p b ∧ result.quorum = b.quorum ∧
    ∃ supporters : Finset AgentId, b.quorum ≤ supporters.card ∧
      ∀ v ∈ supporters, v ∈ b.eligible ∧ Grant self past result.id v

theorem grant_own {self : AgentId} {past : List (Turn κ)} {id : ProposalId} :
    Grant self past id self ↔ ∃ t ∈ past, ∃ j, t.input = .evaluated (.proposer id) j ∧ j.granted = true :=
  iff_of_eq (if_pos rfl)

theorem grant_other {self voter : AgentId} {past : List (Turn κ)} {id : ProposalId} (other : voter ≠ self) :
    Grant self past id voter ↔ ∃ t ∈ past, ∃ v, t.input = .vote v ∧ v.id = id ∧ v.voter = voter ∧ v.granted = true :=
  iff_of_eq (if_neg other)

section Mono
variable {self : AgentId} {past : List (Turn κ)} (t : Turn κ) {id : ProposalId} {voter : AgentId} {caller : κ}

theorem Grant.snoc (h : Grant self past id voter) : Grant self (past ++ [t]) id voter := by
  by_cases own : voter = self
  · subst own
    obtain ⟨u, hu, h⟩ := grant_own.mp h
    exact grant_own.mpr ⟨u, List.mem_append_left _ hu, h⟩
  · obtain ⟨u, hu, h⟩ := (grant_other own).mp h
    exact (grant_other own).mpr ⟨u, List.mem_append_left _ hu, h⟩

theorem Opened.snoc {p : Proposal} {b : Ballot} (h : Opened past caller p b) : Opened (past ++ [t]) caller p b := by
  obtain ⟨u, hu, h⟩ := h
  exact ⟨u, List.mem_append_left _ hu, h⟩

theorem Backed.snoc {result : ProposalResult} (h : Backed self past caller result) :
    Backed self (past ++ [t]) caller result := by
  intro approved
  obtain ⟨p, b, same, opened, quorum, supporters, enough, granted⟩ := h approved
  exact ⟨p, b, same, opened.snoc t, quorum, supporters, enough, fun v hv => ⟨(granted v hv).1, (granted v hv).2.snoc t⟩⟩

end Mono

/-! ## Rounds -/

theorem status_of_decided {r : Round κ} (h : r.decided? = some .approved) : r.ballot.status = .approved := by
  unfold Round.decided? at h
  split at h
  · assumption
  · cases h
  · cases h

/-- Only votes approve: a round that lapses is approved by fallback or times out. -/
theorem status_of_approved {r : Round κ} {fallback : Bool} {now : Nat}
    (h : r.outcome? fallback now = some .approved) : r.ballot.status = .approved := by
  unfold Round.outcome? at h
  split at h
  · next decided => exact status_of_decided (decided.trans h)
  · split at h
    · next own _ =>
      split at h
      · unfold Round.lapse at h
        split at h <;> cases h
      · cases h
    · cases h

/-- What a round holds, by the proposer's past. -/
structure Polled (proposer : AgentId) (past : List (Turn κ)) (r : Round κ) : Prop where
  opened : Opened past r.caller r.proposal r.ballot
  member : proposer ∈ r.ballot.eligible
  proper : r.ballot.Proper
  before : r.own = none → r.ballot.votes = []
  cast : r.own.isSome = true → proposer ∈ r.ballot.voters
  granted : ∀ v ∈ r.ballot.supporters, Grant proposer past r.id v
  inbox : ∀ v ∈ r.inbox, v.id = r.id ∧ ∃ t ∈ past, t.input = .vote v

namespace Polled
variable {self : AgentId} {past : List (Turn κ)} {r r' : Round κ}

theorem snoc (h : Polled self past r) (t : Turn κ) : Polled self (past ++ [t]) r where
  opened := h.opened.snoc t
  member := h.member
  proper := h.proper
  before := h.before
  cast := h.cast
  granted v hv := (h.granted v hv).snoc t
  inbox v hv := by
    obtain ⟨same, u, hu, taken⟩ := h.inbox v hv
    exact ⟨same, u, List.mem_append_left _ hu, taken⟩

theorem opening {t : Turn κ} (ht : t ∈ past) {caller : κ} {p : Proposal} (submitted : t.input = .submit caller p) :
    Polled t.before.self past (t.before.opening t.surroundings caller p) where
  opened := ⟨t, ht, submitted, rfl, rfl⟩
  member := by simp [Engine.opening, Ballot.open_, electorate]
  proper := ⟨List.nodup_nil, by simp [Engine.opening, Ballot.open_, Ballot.voters]⟩
  before _ := rfl
  cast := by simp
  granted := by simp [Engine.opening, Ballot.open_, Ballot.supporters]
  inbox := by simp [Engine.opening]

theorem sent (h : Polled self past r) (waits : r.progress = .posting) : Polled self past r.sent :=
  ⟨h.opened, h.member, h.proper, fun _ => h.before (by rw [Round.own, waits]; rfl), by simp, h.granted, h.inbox⟩

theorem offer (h : Polled self past r) {t : Turn κ} (ht : t ∈ past) {v : ProposalVote} (voted : t.input = .vote v)
    (same : v.id = r.id) : Polled self past (r.offer v) := by
  unfold Round.offer
  split
  · refine ⟨h.opened, h.member, h.proper, h.before, h.cast, h.granted, fun v' hv' => ?_⟩
    rcases List.mem_append.mp hv' with old | new
    · exact h.inbox v' old
    · rw [List.mem_singleton.mp new]
      exact ⟨same, t, ht, voted⟩
  · exact h

theorem castOwn (h : Polled self past r) (first : r.own = none) {t : Turn κ} (ht : t ∈ past) {j : Judgement}
    (judged : t.input = .evaluated (.proposer r.id) j) : Polled self past (r.castOwn self j.granted) := by
  have empty := h.before first
  have taken := Ballot.record_of_new h.member (by simp [Ballot.voters, empty]) j.granted
  rw [empty, List.nil_append] at taken
  refine ⟨?_, ?_, h.proper.record self j.granted, ?_, ?_, ?_, h.inbox⟩
  · obtain ⟨u, hu, submitted, eligible, quorum⟩ := h.opened
    exact ⟨u, hu, submitted, by simpa [Round.castOwn] using eligible, by simpa [Round.castOwn] using quorum⟩
  · simpa [Round.castOwn] using h.member
  · simp
  · simp [Round.castOwn, taken, Ballot.voters]
  · intro v hv
    have only : (v, true) ∈ [(self, j.granted)] := by
      rw [Ballot.mem_supporters] at hv
      simpa [Round.castOwn, taken] using hv
    obtain ⟨rfl, yes⟩ := Prod.mk.inj (List.mem_singleton.mp only)
    exact grant_own.mpr ⟨t, ht, j, judged, yes.symm⟩

theorem read (h : Polled self past r) (cast : r.own.isSome = true) {record : Ballot.Record}
    (next : r.read? = some (r', record)) : Polled self past r' := by
  unfold Round.read? at next
  split at next
  · cases next
  · next v rest inbox =>
    obtain ⟨rfl, -⟩ := Prod.mk.inj (Option.some.inj next)
    obtain ⟨same, t, ht, voted⟩ := h.inbox v (by simp [inbox])
    have opened : Opened past r.caller r.proposal (r.ballot.record v.voter v.granted) := by
      obtain ⟨u, hu, submitted, eligible, quorum⟩ := h.opened
      exact ⟨u, hu, submitted, by simpa using eligible, by simpa using quorum⟩
    have later v' (hv' : v' ∈ rest) := h.inbox v' (by simp [inbox, hv'])
    have voted' : r.own ≠ none := by simpa [Option.isSome_iff_ne_none] using cast
    refine ⟨opened, by simpa using h.member, h.proper.record .., fun first => (voted' first).elim, ?_, ?_, later⟩
    · intro cast
      obtain same | ⟨-, -, taken⟩ := r.ballot.record_cases v.voter v.granted
      · simpa only [same] using h.cast cast
      · have old := h.cast cast
        simp only [Ballot.voters, taken, List.map_append, List.mem_append]
        exact .inl old
    · intro u hu
      obtain same' | ⟨-, new, taken⟩ := r.ballot.record_cases v.voter v.granted
      · exact h.granted u (by simpa only [same'] using hu)
      · rw [Ballot.mem_supporters, taken] at hu
        rcases List.mem_append.mp hu with old | last
        · exact h.granted u (Ballot.mem_supporters.mpr old)
        · obtain ⟨rfl, yes⟩ := Prod.mk.inj (List.mem_singleton.mp last)
          have other : v.voter ≠ self := fun own => new (own ▸ h.cast cast)
          exact (grant_other other).mpr ⟨t, ht, v, voted, same, rfl, yes.symm⟩

theorem backed (h : Polled self past r) {fallback : Bool} {now : Nat} {o : Outcome}
    (known : r.outcome? fallback now = some o) : Backed self past r.caller (r.result o) := by
  rintro rfl
  have approved := status_of_approved known
  refine ⟨r.proposal, r.ballot, rfl, h.opened, rfl, r.ballot.supporters, ?_, fun v hv => ⟨?_, h.granted v hv⟩⟩
  · rw [← h.proper.grants_eq]
    exact Ballot.quorum_of_approved approved
  · exact h.proper.eligible v (List.mem_map_of_mem (f := Prod.fst) (Ballot.mem_supporters.mp hv))

end Polled

/-! ## Steps -/

/-- What an engine holds of the rounds it has opened. -/
structure Polls (agent : AgentId) (past : List (Turn κ)) (e : Engine κ) : Prop where
  self_eq : e.self = agent
  rounds : ∀ r ∈ e.rounds, Polled agent past r
  commits : ∀ a ∈ e.applications, ∀ result caller, a.purpose = .commit result caller → Backed agent past caller result

/-- Whether an output is true to the past: a result is backed, a vote is the agent's own. -/
def Output.Fair (agent : AgentId) (past : List (Turn κ)) : Output κ → Prop
  | .submitted caller (.ok result) => Backed agent past caller result
  | .send e _ | .post _ e => ∀ v, e.message = .proposalVote v → v.voter = agent
  | _ => True

theorem Output.Fair.snoc {agent : AgentId} {past : List (Turn κ)} {o : Output κ} (h : o.Fair agent past) (t : Turn κ) :
    o.Fair agent (past ++ [t]) := by
  unfold Output.Fair at h ⊢
  split at h
  · exact Backed.snoc t h
  · exact h
  · exact h
  · trivial

/-- Whether a step leaves the rounds sound and its outputs are true to the past. -/
def Sound (agent : AgentId) (past : List (Turn κ)) (s : Step κ) : Prop :=
  Polls agent past s.1 ∧ ∀ o ∈ s.2, o.Fair agent past

section Parts
variable {agent : AgentId} {past : List (Turn κ)} (e : Engine κ) (c : Surroundings)

theorem fair_publish {env : Envelope} (own : ∀ v, env.message = .proposalVote v → v.voter = agent) :
    ∀ o ∈ publish c env, Output.Fair agent past o := by
  unfold publish
  split
  · simp
  · intro o ho
    rw [List.mem_singleton.mp ho]
    exact own

end Parts

namespace Polls
variable {self : AgentId} {past : List (Turn κ)} {e e' : Engine κ} {c : Surroundings} {id : ProposalId}
  {purpose : Purpose κ} {r : Round κ}

theorem snoc (h : Polls self past e) (t : Turn κ) : Polls self (past ++ [t]) e :=
  ⟨h.self_eq, fun r hr => (h.rounds r hr).snoc t,
    fun a ha result caller why => (h.commits a ha result caller why).snoc t⟩

theorem congr (h : Polls self past e) (same : e'.self = e.self) (rounds : e'.rounds = e.rounds)
    (applications : e'.applications = e.applications) : Polls self past e' :=
  ⟨same.trans h.self_eq, rounds ▸ h.rounds, applications ▸ h.commits⟩

theorem quiet (h : Polls self past e) : Sound self past (e, []) := ⟨h, by simp⟩

theorem refuse (h : Polls self past e) (caller : κ) (f : Fault) : Sound self past (e.refuse caller f) :=
  ⟨h, by simp [Engine.refuse, Output.Fair]⟩

theorem setRound (h : Polls self past e) (polled : Polled self past r) : Polls self past (e.setRound r) := by
  refine ⟨h.self_eq, fun r' hr' => ?_, h.commits⟩
  obtain ⟨r₀, hr₀, rfl⟩ := List.mem_map.mp hr'
  split
  · exact polled
  · exact h.rounds r₀ hr₀

theorem dropRound (h : Polls self past e) (id : ProposalId) : Polls self past (e.dropRound id) :=
  ⟨h.self_eq, fun r' hr' => h.rounds r' (List.mem_filter.mp hr').1, h.commits⟩

theorem endRound (h : Polls self past e) (r : Round κ) (o : Outcome) : Polls self past (e.endRound r o) :=
  ⟨h.self_eq, fun r' hr' => h.rounds r' (List.mem_filter.mp hr').1, h.commits⟩

theorem round (h : Polls self past e) (found : e.round? id = some r) : Polled self past r ∧ r.id = id :=
  ⟨h.rounds r (List.mem_of_find?_eq_some found), by simpa using List.find?_some found⟩

theorem closePropagation (h : Polls self past e) (p : Propagation κ) : Sound self past (e.closePropagation c p) := by
  unfold Engine.closePropagation
  split
  · have closed : Polls self past { e.dropPropagation p.id with tracker := p.track e.tracker } := h.congr rfl rfl rfl
    exact ⟨closed, by simp [Output.Fair]⟩
  · have kept : Polls self past (e.setPropagation p) := h.congr rfl rfl rfl
    exact kept.quiet

theorem settle (h : Polls self past e) {ended : Except Fault Bool}
    (why : ∀ result caller, purpose = .commit result caller → Backed self past caller result) :
    Sound self past (e.settle c id purpose ended) := by
  cases purpose with
  | commit result caller =>
    refine ⟨h, fun o ho => ?_⟩
    rw [List.mem_singleton.mp ho]
    cases ended with
    | error f => trivial
    | ok applied => exact why result caller rfl
  | propagation =>
    simp only [Engine.settle]
    split
    · exact h.closePropagation _
    · exact h.quiet
  | approval => exact h.quiet
  | delivery sender => exact ⟨h, fair_publish c (by simp [Envelope.direct])⟩
  | direct caller => exact ⟨h, by simp [Engine.settle, Output.Fair]⟩

theorem apply (h : Polls self past e) {action : String} {params : Json}
    (why : ∀ result caller, purpose = .commit result caller → Backed self past caller result) :
    Sound self past (e.apply c id action params purpose) := by
  obtain ⟨ledger, metrics, outputs, ended, -, announced, eq⟩ | ⟨-, ledger, eq⟩ :=
    e.apply_cases c id action params purpose
  · have kept : Polls self past { e with ledger, metrics } := h.congr rfl rfl rfl
    have settled : Sound self past ({ e with ledger, metrics }.settle c id purpose ended) := kept.settle why
    rw [eq]
    refine ⟨settled.1, fun o ho => ?_⟩
    rcases List.mem_append.mp ho with first | last
    · obtain ⟨event, rfl⟩ := announced o first
      trivial
    · exact settled.2 o last
  · rw [eq]
    refine ⟨⟨h.self_eq, h.rounds, fun a ha => ?_⟩, by simp [Output.Fair]⟩
    rcases List.mem_append.mp ha with old | new
    · exact h.commits a old
    · rw [List.mem_singleton.mp new]
      exact why

theorem executed (h : Polls self past e) (ticket : Nat) (ended : Except ExecutionFault Unit) :
    Sound self past (e.executed c ticket ended) := by
  obtain ⟨-, eq⟩ | ⟨a, metrics, outputs, result, found, -, announced, eq⟩ := e.executed_cases c ticket ended
  · rw [eq]
    exact h.quiet
  · have open_ : a ∈ e.applications := List.mem_of_find?_eq_some found
    have left : Polls self past { e.release a ended with metrics } :=
      ⟨h.self_eq, h.rounds, fun a' ha' => h.commits a' (List.mem_filter.mp ha').1⟩
    obtain ⟨polls, fair⟩ := left.settle (c := c) fun result caller commit => h.commits a open_ result caller commit
    rw [eq]
    refine ⟨polls, fun o ho => ?_⟩
    rcases List.mem_append.mp ho with first | last
    · obtain ⟨event, rfl⟩ := announced o first
      trivial
    · exact fair o last

theorem closeRound (h : Polls self past e) (polled : Polled self past r) {fallback : Bool} {now : Nat} {o : Outcome}
    (known : r.outcome? fallback now = some o) : Sound self past (e.closeRound c r o) := by
  have backed := polled.backed known
  unfold Engine.closeRound
  split
  · have why result caller (commit : Purpose.commit (r.result o) r.caller = .commit result caller) :
        Backed self past caller result := by
      cases commit
      exact backed
    obtain ⟨polls, fair⟩ := (h.endRound r o).apply (c := c) why
    refine ⟨polls, fun o' ho' => ?_⟩
    rcases List.mem_cons.mp ho' with rfl | rest
    · trivial
    rcases List.mem_append.mp rest with sent | last
    · exact fair_publish c (by simp [Envelope.broadcast]) o' sent
    · exact fair o' last
  · refine ⟨h.endRound r o, fun o' ho' => ?_⟩
    rcases List.mem_cons.mp ho' with rfl | rest
    · trivial
    · rw [List.mem_singleton.mp rest]
      exact backed

theorem advanceRound (h : Polls self past e) (polled : Polled self past r) : Sound self past (e.advanceRound c r) := by
  unfold Engine.advanceRound
  split
  · next known => exact h.closeRound polled known
  · exact (h.setRound polled).quiet

theorem readVote (h : Polls self past e) (id : ProposalId) : Sound self past (e.readVote c id) := by
  unfold Engine.readVote
  split
  · exact h.quiet
  · next r found =>
    obtain ⟨polled, -⟩ := h.round found
    split
    · next cast =>
      split
      · next r' record next =>
        have counted : Polls self past (e.countVote record) := h.congr rfl rfl rfl
        exact counted.advanceRound (polled.read cast next)
      · exact h.advanceRound polled
    · exact h.quiet

theorem submit (h : Polls self past e) {caller : κ} {p : Proposal} (ht : ⟨e, c, .submit caller p⟩ ∈ past) :
    Sound self past (e.submit c caller p) := by
  obtain ⟨m, f, eq⟩ | ⟨-, m, eq⟩ := e.submit_cases c caller p
  · have counted : Polls self past { e with metrics := m } := h.congr rfl rfl rfl
    rw [eq]
    exact counted.refuse caller f
  · have opened : Polls self past { e with metrics := m, rounds := e.rounds ++ [e.opening c caller p] } := by
      refine ⟨h.self_eq, fun r hr => ?_, h.commits⟩
      rcases List.mem_append.mp hr with old | new
      · exact h.rounds r old
      · rw [List.mem_singleton.mp new, ← h.self_eq]
        exact .opening ht rfl
    rw [eq]
    exact ⟨opened, by simp [Output.Fair, call, Envelope.broadcast]⟩

theorem requestPosted (h : Polls self past e) (id : ProposalId) (ended : Except TransportFault Unit) :
    Sound self past (e.requestPosted id ended) := by
  obtain eq | ⟨r, found, waits, ⟨-, eq⟩ | ⟨f, -, eq⟩⟩ := e.requestPosted_cases id ended
  · rw [eq]
    exact h.quiet
  · rw [eq]
    exact ⟨h.setRound ((h.round found).1.sent waits), by simp [Output.Fair]⟩
  · rw [eq]
    exact (h.dropRound id).refuse r.caller (.transport f)

theorem evaluated (h : Polls self past e) {seat : Seat κ} {j : Judgement} (ht : ⟨e, c, .evaluated seat j⟩ ∈ past) :
    Sound self past (e.evaluated c seat j) := by
  unfold Engine.evaluated
  split
  · split
    · next r found =>
      obtain ⟨polled, rfl⟩ := h.round found
      split
      · next works =>
        rw [h.self_eq]
        exact h.advanceRound (polled.castOwn (by rw [Round.own, works]; rfl) ht rfl)
      · exact h.quiet
    · exact h.quiet
  · refine ⟨h, fun o ho => ?_⟩
    rcases List.mem_append.mp ho with sent | rest
    · refine fair_publish c (fun v vote => ?_) o sent
      cases vote
      exact h.self_eq
    · rw [List.mem_singleton.mp rest]
      trivial

theorem vote (h : Polls self past e) {v : ProposalVote} (ht : ⟨e, c, .vote v⟩ ∈ past) : Polls self past (e.vote v) := by
  unfold Engine.vote
  split
  · next r found =>
    obtain ⟨polled, same⟩ := h.round found
    exact h.setRound (polled.offer ht rfl same.symm)
  · exact h.congr rfl rfl rfl

theorem request (h : Polls self past e) (caller : κ) (sender : AgentId) (m : ProposalRequest) :
    Sound self past (e.request caller sender m) := by
  unfold Engine.request
  split
  · exact ⟨h, by simp [Output.Fair]⟩
  · exact ⟨h, by simp [Output.Fair]⟩

theorem approval (h : Polls self past e) (sender : AgentId) (m : Approval) :
    Sound self past (e.approval c sender m) := by
  have counted : Polls self past e.countUnauthorized := h.congr rfl rfl rfl
  unfold Engine.approval
  split
  · exact h.apply (by simp)
  · exact counted.quiet

theorem delivery (h : Polls self past e) (sender : AgentId) (m : Propagate) :
    Sound self past (e.delivery c sender m) := by
  have counted : Polls self past e.countUnauthorized := h.congr rfl rfl rfl
  unfold Engine.delivery
  split
  · exact h.quiet
  split
  · exact h.apply (by simp)
  · exact counted.quiet

theorem propagate (h : Polls self past e) (caller : κ) (id : ProposalId) (action : String) (params : Json)
    (timeout : Nat) : Sound self past (e.propagate c caller id action params timeout) := by
  obtain ⟨-, eq⟩ | ⟨-, eq⟩ := e.propagate_cases c caller id action params timeout
  · rw [eq]
    exact ⟨h, by simp [declinePropagation, Output.Fair]⟩
  · have opened : Polls self past (e.openPropagation (e.sending c caller id action params timeout)) :=
      h.congr rfl rfl rfl
    rw [eq]
    exact ⟨opened, by simp [Output.Fair, order, Envelope.broadcast]⟩

theorem propagationPosted (h : Polls self past e) (id : ProposalId) (ended : Except TransportFault Unit) :
    Sound self past (e.propagationPosted c id ended) := by
  obtain eq | ⟨p, -, -, ⟨-, eq⟩ | ⟨f, -, eq⟩⟩ := e.propagationPosted_cases c id ended
  · rw [eq]
    exact h.quiet
  · have kept : Polls self past (e.setPropagation p.sent) := h.congr rfl rfl rfl
    rw [eq]
    exact kept.apply (by simp)
  · have dropped : Polls self past (e.dropPropagation id) := h.congr rfl rfl rfl
    rw [eq]
    exact ⟨dropped, by simp [declinePropagation, Output.Fair]⟩

theorem ack (h : Polls self past e) (a : ActionAck) : Polls self past (e.ack a) := by
  unfold Engine.ack
  split
  · exact h.congr rfl rfl rfl
  · exact h

theorem readAck (h : Polls self past e) (id : ProposalId) : Sound self past (e.readAck c id) := by
  unfold Engine.readAck
  split
  · exact h.quiet
  · split
    · exact h.closePropagation _
    · exact h.quiet

theorem step (h : Polls self past e) {i : Input κ} (ht : ⟨e, c, i⟩ ∈ past) : Sound self past (e.step c i) := by
  cases i with
  | submit caller p => exact h.submit ht
  | propagate caller id action params timeout => exact h.propagate caller id action params timeout
  | request caller sender m => exact h.request caller sender m
  | vote v => exact (h.vote ht).quiet
  | approval sender m => exact h.approval sender m
  | delivery sender m => exact h.delivery sender m
  | ack a => exact (h.ack a).quiet
  | apply caller id action params => exact h.apply (by simp)
  | posted errand ended =>
    cases errand with
    | proposal id => exact h.requestPosted id ended
    | propagation id => exact h.propagationPosted id ended
  | evaluated seat j => exact h.evaluated ht
  | executed ticket ended => exact h.executed ticket ended
  | readVote id => exact h.readVote id
  | readAck id => exact h.readAck id

end Polls

theorem History.polls {self : AgentId} {settings : ConsensusSettings} {fallback : Bool} {turns : List (Turn κ)}
    {e : Engine κ} (h : History (create self settings fallback) turns e) :
    Polls self turns e ∧ ∀ t ∈ turns, ∀ o ∈ t.outputs, o.Fair self turns := by
  induction h with
  | start => exact ⟨⟨rfl, by simp [create], by simp [create]⟩, by simp⟩
  | step past c i ih =>
    obtain ⟨polls, fair⟩ := ih
    obtain ⟨after, new⟩ := (polls.snoc ⟨_, c, i⟩).step (List.mem_append_right _ (List.mem_singleton_self _))
    refine ⟨after, fun t ht o ho => ?_⟩
    rcases List.mem_append.mp ht with old | last
    · exact (fair t old o ho).snoc _
    · rw [List.mem_singleton.mp last] at ho
      exact new o ho

end FleetCoordination.Engine
