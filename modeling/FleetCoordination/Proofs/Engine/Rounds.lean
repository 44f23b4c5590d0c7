import FleetCoordination.Proofs.Engine.Votes
/-!
# The course of rounds

A step opens a round, moves one on, closes one, gives one up, or leaves them as they are; what it
publishes goes with that. A round keeps its charter from the submission that opened it:
its proposal, and the term in which its proposer led at that time.
-/
namespace FleetCoordination

/-- What a round keeps from its opening to its close. -/
def Round.charter {κ : Type} (r : Round κ) : κ × Proposal × Term := (r.caller, r.proposal, r.term)

namespace Engine
variable {κ : Type}

def Output.message? : Output κ → Option Message
  | .send e _ | .post _ e => some e.message
  | _ => none

/-- The messages published in a list of outputs, in order. -/
def messages (outputs : List (Output κ)) : List Message := outputs.filterMap Output.message?

@[simp] theorem messages_nil : messages ([] : List (Output κ)) = [] := rfl

@[simp] theorem messages_cons (o : Output κ) (outputs : List (Output κ)) :
    messages (o :: outputs) = o.message?.toList ++ messages outputs := by
  cases h : o.message? <;> simp [messages, h]

@[simp] theorem messages_append (xs ys : List (Output κ)) : messages (xs ++ ys) = messages xs ++ messages ys := by
  simp [messages]

/-- What is published of a message: nothing while the bus is out of order. -/
def published (c : Surroundings) (m : Message) : List Message := if c.bus.isNone then [m] else []

theorem messages_publish (c : Surroundings) (env : Envelope) :
    messages (publish c env : List (Output κ)) = published c env.message := by
  unfold publish published
  cases c.bus <;> rfl

/-- The round that an input moves on, as the input leaves it. -/
def advanced? (e : Engine κ) : Input κ → Option (Round κ)
  | .evaluated (.proposer id) j =>
    (e.round? id).bind fun r => if r.progress = .working then some (r.castOwn e.self j.granted) else none
  | .readVote id => (e.round? id).bind fun r => if r.own.isSome then some ((r.read?.map Prod.fst).getD r) else none
  | _ => none

/-- The round that an input closes, with its outcome. -/
def closing? (e : Engine κ) (c : Surroundings) (i : Input κ) : Option (Round κ × Outcome) :=
  (e.advanced? i).bind fun r => (r.outcome? e.fallback c.now).map (r, ·)

/-- The round that an input gives up as its request could not be published, and why it could not. -/
def abandoned? (e : Engine κ) : Input κ → Option (Round κ × TransportFault)
  | .posted (.proposal id) (.error f) =>
    (e.round? id).bind fun r => if r.progress = .posting then some (r, f) else none
  | _ => none

/-- What a step can do to the rounds, with what it publishes. -/
inductive Course (e : Engine κ) (c : Surroundings) (i : Input κ) : List (Round κ) → List Message → Prop
  | idle : Course e c i e.rounds []
  | answered (m : Message) (answer : (∃ a, m = .ack a) ∨ ∃ v, m = .proposalVote v) :
      Course e c i e.rounds (published c m)
  | propagated (m : Propagate) (stamp : m.term = c.leadership.term) : Course e c i e.rounds [.propagate m]
  | opened (caller : κ) (p : Proposal) (asked : i = .submit caller p) (leads : c.leadership.isLeader = true) :
      Course e c i (e.rounds ++ [e.opening c caller p]) [.proposalRequest (Round.request p)]
  | advanced (r r' : Round κ) (held : r ∈ e.rounds) (charter : r'.charter = r.charter) :
      Course e c i (e.rounds.map fun x => if x.id = r'.id then r' else x) []
  | closed (r : Round κ) (o : Outcome) (closes : e.closing? c i = some (r, o)) :
      Course e c i (e.rounds.filter fun x => x.id ≠ r.id)
        (if o.committed then published c (.approval (r.approval o)) else [])
  | abandoned (r : Round κ) (f : TransportFault) (gives : e.abandoned? i = some (r, f)) :
      Course e c i (e.rounds.filter fun x => x.id ≠ r.id) []

/-! ## Parts of a step -/

/-- Whose engine it is, and whether it may fall back on its own vote. -/
def bearing (e : Engine κ) : AgentId × Bool := (e.self, e.fallback)

/-- What applications and propagations leave alone. -/
def posture (e : Engine κ) : (AgentId × Bool) × List (Round κ) := (e.bearing, e.rounds)

section Parts
variable (e : Engine κ) (c : Surroundings)

theorem posture_closePropagation (p : Propagation κ) : (e.closePropagation c p).1.posture = e.posture := by
  unfold closePropagation
  split <;> rfl

theorem posture_settle (id : ProposalId) (purpose : Purpose κ) (result : Except Fault Bool) :
    (e.settle c id purpose result).1.posture = e.posture := by
  unfold settle
  split
  · rfl
  · split
    · exact posture_closePropagation ..
    · rfl
  · rfl
  · rfl
  · rfl

theorem posture_apply (id : ProposalId) (action : String) (params : Json) (purpose : Purpose κ) :
    (e.apply c id action params purpose).1.posture = e.posture := by
  unfold apply
  dsimp only
  split
  · exact posture_settle ..
  · exact posture_settle ..
  · exact posture_settle ..
  · rfl

theorem rounds_settle (id : ProposalId) (purpose : Purpose κ) (result : Except Fault Bool) :
    (e.settle c id purpose result).1.rounds = e.rounds := congrArg Prod.snd (e.posture_settle c id purpose result)

theorem rounds_apply (id : ProposalId) (action : String) (params : Json) (purpose : Purpose κ) :
    (e.apply c id action params purpose).1.rounds = e.rounds :=
  congrArg Prod.snd (e.posture_apply c id action params purpose)

/-- Only a delivery is answered when its application has ended. -/
theorem messages_settle (id : ProposalId) (purpose : Purpose κ) (result : Except Fault Bool) :
    messages (e.settle c id purpose result).2 = [] ∨
      (∃ sender, purpose = .delivery sender) ∧ ∃ a, messages (e.settle c id purpose result).2 = published c (.ack a) := by
  cases purpose with
  | propagation =>
    left
    unfold settle closePropagation
    dsimp only
    split
    · split <;> rfl
    · rfl
  | delivery sender => exact .inr ⟨⟨sender, rfl⟩, _, messages_publish c _⟩
  | commit | approval | direct => exact .inl rfl

theorem messages_announced {outputs : List (Output κ)} (announced : ∀ o ∈ outputs, ∃ event, o = .announce event) :
    messages outputs = [] := by
  refine List.filterMap_eq_nil_iff.mpr fun o ho => ?_
  obtain ⟨event, rfl⟩ := announced o ho
  rfl

theorem messages_apply (id : ProposalId) (action : String) (params : Json) (purpose : Purpose κ) :
    messages (e.apply c id action params purpose).2 = [] ∨
      (∃ sender, purpose = .delivery sender) ∧
        ∃ a, messages (e.apply c id action params purpose).2 = published c (.ack a) := by
  obtain ⟨ledger, metrics, outputs, ended, -, announced, eq⟩ | ⟨-, ledger, eq⟩ :=
    e.apply_cases c id action params purpose
  · rw [eq, messages_append, messages_announced announced, List.nil_append]
    exact messages_settle _ c id purpose ended
  · rw [eq]
    exact .inl rfl

theorem course_apply {i : Input κ} (id : ProposalId) (action : String) (params : Json) (purpose : Purpose κ) :
    Course e c i (e.apply c id action params purpose).1.rounds (messages (e.apply c id action params purpose).2) := by
  rw [rounds_apply]
  obtain silent | ⟨-, a, acked⟩ := e.messages_apply c id action params purpose
  · rw [silent]
    exact .idle
  · rw [acked]
    exact .answered _ (.inl ⟨a, rfl⟩)

theorem course_executed {i : Input κ} (ticket : Nat) (ended : Except ExecutionFault Unit) :
    Course e c i (e.executed c ticket ended).1.rounds (messages (e.executed c ticket ended).2) := by
  obtain ⟨-, eq⟩ | ⟨a, metrics, outputs, result, -, -, announced, eq⟩ := e.executed_cases c ticket ended
  · rw [eq]
    exact .idle
  · rw [eq, rounds_settle, messages_append, messages_announced announced, List.nil_append]
    obtain silent | ⟨-, ack, acked⟩ := messages_settle { e.release a ended with metrics } c a.id a.purpose result
    · rw [silent]
      exact .idle
    · rw [acked]
      exact .answered _ (.inl ⟨ack, rfl⟩)

/-- What a committed round publishes is its approval alone. -/
theorem messages_closeRound (r : Round κ) (o : Outcome) :
    messages (e.closeRound c r o).2 = if o.committed then published c (.approval (r.approval o)) else [] := by
  unfold closeRound
  dsimp only
  split
  · have rest : messages ((e.endRound r o).apply c r.id r.proposal.action r.proposal.params
        (.commit (r.result o) r.caller)).2 = [] := by
      obtain silent | ⟨⟨sender, why⟩, -⟩ := (e.endRound r o).messages_apply c r.id r.proposal.action
        r.proposal.params (.commit (r.result o) r.caller)
      · exact silent
      · cases why
    simp [resolved, Output.message?, broadcast, messages_publish, Envelope.broadcast, rest]
  · rfl

theorem rounds_closeRound (r : Round κ) (o : Outcome) :
    (e.closeRound c r o).1.rounds = e.rounds.filter fun x => x.id ≠ r.id := by
  unfold closeRound
  dsimp only
  split
  · exact (e.endRound r o).rounds_apply c ..
  · rfl

/-- A committed round marks its proposal executed. -/
theorem executed_closeRound {r : Round κ} {o : Outcome} (committed : o.committed = true) :
    (e.closeRound c r o).1.ledger.executed = (e.ledger.executed.insert r.id).1 := by
  have ledger : (e.endRound r o).ledger = e.ledger := rfl
  have settled (e' : Engine κ) (purpose : Purpose κ) (result : Except Fault Bool) :
      (e'.settle c r.id purpose result).1.ledger = e'.ledger := congrArg Books.ledger (e'.books_settle ..)
  unfold closeRound
  rw [if_pos committed]
  cases known : e.ledger.executed.contains r.id with
  | true =>
    simp only [apply, ledger, Ledger.start_of_contains known, settled]
    exact (congrArg Prod.fst (ExecutedWindow.insert_of_contains known)).symm
  | false =>
    by_cases roles : r.proposal.action = RoleReassignment.action
    · cases read : RoleReassignment.ofJson? r.proposal.params with
      | some _ =>
        simp only [apply, ledger, Ledger.start_of_new known, if_pos roles, Ledger.reassign, read, settled]
        rfl
      | none =>
        simp only [apply, ledger, Ledger.start_of_new known, if_pos roles, Ledger.reassign, read, settled]
        rfl
    · simp only [apply, ledger, Ledger.start_of_new known, if_neg roles]
      rfl

end Parts

/-! ## Steps -/

section Steps
variable {e : Engine κ} {c : Surroundings} {i : Input κ} {r : Round κ} {o : Outcome}

theorem charter_read {r' : Round κ} {record : Ballot.Record} (read : r.read? = some (r', record)) :
    r'.charter = r.charter := by
  unfold Round.read? at read
  split at read
  · cases read
  · cases read
    rfl

theorem charter_offer (r : Round κ) (v : ProposalVote) : (r.offer v).charter = r.charter := by
  unfold Round.offer
  split <;> rfl

/-- An input that moves a round on moves it as far as it goes, and counts a vote at most. -/
theorem step_of_advanced_counting (h : e.advanced? i = some r) (c : Surroundings) :
    (∃ r₀ ∈ e.rounds, r.charter = r₀.charter) ∧
      ∃ equivocations, e.step c i = { e with metrics := { e.metrics with equivocations } }.advanceRound c r := by
  unfold advanced? at h
  split at h
  · next id j =>
    obtain ⟨r₀, found, cast⟩ := Option.bind_eq_some_iff.mp h
    split at cast
    · next works =>
      cases cast
      refine ⟨⟨r₀, List.mem_of_find?_eq_some found, rfl⟩, e.metrics.equivocations, ?_⟩
      simp only [step, evaluated, found, if_pos works]
    · cases cast
  · next id =>
    obtain ⟨r₀, found, read⟩ := Option.bind_eq_some_iff.mp h
    split at read
    · next cast =>
      cases read
      have held : r₀ ∈ e.rounds := List.mem_of_find?_eq_some found
      cases next : r₀.read? with
      | some read =>
        refine ⟨⟨r₀, held, charter_read next⟩, (e.countVote read.2).metrics.equivocations, ?_⟩
        simp only [step, readVote, found, if_pos cast, next]
        rfl
      | none =>
        refine ⟨⟨r₀, held, rfl⟩, e.metrics.equivocations, ?_⟩
        simp only [step, readVote, found, if_pos cast, next]
        rfl
    · cases read
  · cases h

theorem step_of_advanced (h : e.advanced? i = some r) (c : Surroundings) :
    (∃ r₀ ∈ e.rounds, r.charter = r₀.charter) ∧ ∃ m, e.step c i = { e with metrics := m }.advanceRound c r :=
  (step_of_advanced_counting h c).imp_right fun ⟨_, eq⟩ => ⟨_, eq⟩

theorem step_of_closing (h : e.closing? c i = some (r, o)) :
    (∃ r₀ ∈ e.rounds, r.charter = r₀.charter) ∧ ∃ m, e.step c i = { e with metrics := m }.closeRound c r o := by
  obtain ⟨r', moved, known⟩ := Option.bind_eq_some_iff.mp h
  obtain ⟨o', outcome, same⟩ := Option.map_eq_some_iff.mp known
  cases same
  obtain ⟨held, m, eq⟩ := step_of_advanced moved c
  refine ⟨held, m, eq.trans ?_⟩
  unfold advanceRound
  rw [show r.outcome? e.fallback c.now = some o from outcome]

theorem evaluated_of_still {id : ProposalId} {j : Judgement}
    (still : e.advanced? (.evaluated (.proposer id) j) = none) :
    e.evaluated c (.proposer id) j = (e, []) := by
  unfold evaluated
  dsimp only
  split
  · next r found =>
    split
    · next works => simp [advanced?, found, works] at still
    · rfl
  · rfl

theorem readVote_of_still {id : ProposalId} (still : e.advanced? (.readVote id) = none) :
    e.readVote c id = (e, []) := by
  unfold readVote
  split
  · rfl
  · next r found =>
    split
    · next cast => simp [advanced?, found, cast] at still
    · rfl

theorem course_of_advanced (h : e.advanced? i = some r) :
    Course e c i (e.step c i).1.rounds (messages (e.step c i).2) := by
  obtain ⟨⟨r₀, held, charter⟩, m, eq⟩ := step_of_advanced h c
  cases known : r.outcome? e.fallback c.now with
  | some o =>
    have closes : e.closing? c i = some (r, o) := by simp [closing?, h, known]
    rw [eq, advanceRound]
    simp only [known, rounds_closeRound, messages_closeRound]
    exact .closed r o closes
  | none =>
    rw [eq, advanceRound]
    simp only [known]
    exact .advanced r₀ r held charter

theorem course_submit (caller : κ) (p : Proposal) :
    Course e c (.submit caller p) (e.submit c caller p).1.rounds (messages (e.submit c caller p).2) := by
  unfold submit
  dsimp only
  split
  · exact .idle
  · next leads =>
    have opened := Course.opened (e := e) (c := c) caller p rfl (by simpa using leads)
    split
    · exact .idle
    split
    · exact .idle
    · exact opened

theorem abandoned_of_posting {id : ProposalId} (found : e.round? id = some r) (waits : r.progress = .posting)
    (f : TransportFault) : e.abandoned? (.posted (.proposal id) (.error f)) = some (r, f) := by
  simp [abandoned?, found, waits]

theorem course_requestPosted (id : ProposalId) (ended : Except TransportFault Unit) :
    Course e c (.posted (.proposal id) ended) (e.requestPosted id ended).1.rounds
      (messages (e.requestPosted id ended).2) := by
  obtain eq | ⟨r, found, waits, ⟨-, eq⟩ | ⟨f, rfl, eq⟩⟩ := e.requestPosted_cases id ended
  · rw [eq]
    exact .idle
  · rw [eq]
    exact .advanced r r.sent (List.mem_of_find?_eq_some found) rfl
  · obtain rfl : r.id = id := by simpa using List.find?_some found
    rw [eq]
    exact .abandoned r f (abandoned_of_posting found waits f)

theorem course_propagate (caller : κ) (id : ProposalId) (action : String) (params : Json) (timeout : Nat) :
    Course e c i (e.propagate c caller id action params timeout).1.rounds
      (messages (e.propagate c caller id action params timeout).2) := by
  obtain ⟨-, eq⟩ | ⟨-, eq⟩ := e.propagate_cases c caller id action params timeout
  · rw [eq]
    exact .idle
  · rw [eq]
    exact .propagated { id, action, params, term := c.leadership.term } rfl

theorem course_propagationPosted (id : ProposalId) (ended : Except TransportFault Unit) :
    Course e c i (e.propagationPosted c id ended).1.rounds (messages (e.propagationPosted c id ended).2) := by
  obtain eq | ⟨p, -, -, ⟨-, eq⟩ | ⟨f, -, eq⟩⟩ := e.propagationPosted_cases c id ended
  · rw [eq]
    exact .idle
  · rw [eq, rounds_apply]
    obtain silent | ⟨⟨sender, why⟩, -⟩ := (e.setPropagation p.sent).messages_apply c id p.action p.params .propagation
    · rw [silent]
      exact .idle
    · cases why
  · rw [eq]
    exact .idle

theorem course_step (e : Engine κ) (c : Surroundings) (i : Input κ) :
    Course e c i (e.step c i).1.rounds (messages (e.step c i).2) := by
  cases moved : e.advanced? i with
  | some r => exact course_of_advanced moved
  | none =>
    cases i with
    | submit caller p => exact course_submit caller p
    | propagate caller id action params timeout => exact course_propagate caller id action params timeout
    | request caller sender m =>
      simp only [step, request]
      split <;> exact .idle
    | vote v =>
      simp only [step, vote]
      split
      · next r found => exact .advanced r _ (List.mem_of_find?_eq_some found) (charter_offer r v)
      · exact .idle
    | approval sender m =>
      simp only [step, approval]
      split
      · exact e.course_apply c ..
      · exact .idle
    | delivery sender m =>
      simp only [step, delivery]
      split
      · exact .idle
      split
      · exact e.course_apply c ..
      · exact .idle
    | ack a =>
      simp only [step, ack]
      split <;> exact .idle
    | apply caller id action params => exact e.course_apply c ..
    | posted errand ended =>
      cases errand with
      | proposal id => exact course_requestPosted id ended
      | propagation id => exact course_propagationPosted id ended
    | evaluated seat j =>
      cases seat with
      | proposer id =>
        rw [step, evaluated_of_still moved]
        exact .idle
      | peer sender id caller =>
        have told : messages [(Output.voted caller : Output κ)] = [] := rfl
        simp only [step, evaluated, messages_append, reply, messages_publish, told, List.append_nil]
        exact .answered _ (.inr ⟨_, rfl⟩)
    | executed ticket ended => exact e.course_executed c ticket ended
    | readVote id =>
      rw [step, readVote_of_still moved]
      exact .idle
    | readAck id =>
      simp only [step, readAck]
      split
      · exact .idle
      · split
        · unfold closePropagation
          split <;> exact .idle
        · exact .idle

end Steps

/-! ## Charters -/

/-- Whether a round was opened by a submission in the past, in the term in which its proposer
led then. -/
def Chartered (past : List (Turn κ)) (r : Round κ) : Prop :=
  ∃ t ∈ past, t.input = .submit r.caller r.proposal ∧ t.surroundings.leadership.isLeader = true ∧
    t.surroundings.leadership.term = r.term

section Chartered
variable {past : List (Turn κ)} {e origin : Engine κ} {c : Surroundings} {i : Input κ} {r r' : Round κ}

theorem Chartered.snoc (h : Chartered past r) (t : Turn κ) : Chartered (past ++ [t]) r := by
  obtain ⟨u, hu, h⟩ := h
  exact ⟨u, List.mem_append_left _ hu, h⟩

theorem Chartered.congr (h : Chartered past r) (charter : r'.charter = r.charter) : Chartered past r' := by
  simp only [Round.charter, Prod.mk.injEq] at charter
  obtain ⟨caller, proposal, term⟩ := charter
  obtain ⟨t, ht, submitted, leads, stamp⟩ := h
  exact ⟨t, ht, by rw [submitted, caller, proposal], leads, stamp.trans term.symm⟩

theorem Course.chartered {rounds : List (Round κ)} {sent : List Message} (course : Course e c i rounds sent)
    (h : ∀ r ∈ e.rounds, Chartered past r) : ∀ r ∈ rounds, Chartered (past ++ [⟨e, c, i⟩]) r := by
  have kept r (hr : r ∈ e.rounds) : Chartered (past ++ [⟨e, c, i⟩]) r := (h r hr).snoc _
  cases course with
  | idle | answered | propagated => exact kept
  | opened caller p asked leads =>
    intro r hr
    rcases List.mem_append.mp hr with old | new
    · exact kept r old
    · rw [List.mem_singleton.mp new]
      exact ⟨⟨e, c, i⟩, List.mem_append_right _ (List.mem_singleton_self _), asked, leads, rfl⟩
  | advanced r₀ r' held charter =>
    intro r hr
    obtain ⟨x, hx, rfl⟩ := List.mem_map.mp hr
    split
    · exact (kept r₀ held).congr charter
    · exact kept x hx
  | closed | abandoned => exact fun r hr => kept r (List.mem_filter.mp hr).1

theorem History.chartered {turns : List (Turn κ)} (h : History origin turns e) (empty : origin.rounds = []) :
    ∀ r ∈ e.rounds, Chartered turns r := by
  induction h with
  | start => simp [empty]
  | step past c i ih => exact (course_step _ c i).chartered ih

end Chartered

/-! ## Commits -/

/-- Whether a turn ends a round with a committing outcome and marks the proposal executed. -/
structure Turn.Commits (t : Turn κ) (r : Round κ) (o : Outcome) : Prop where
  closes : t.before.closing? t.surroundings t.input = some (r, o)
  committed : o.committed = true
  marks : r.id ∈ t.marked

section Commits
variable {t : Turn κ} {r : Round κ} {o : Outcome}

theorem Turn.Commits.chartered (h : t.Commits r o) {past : List (Turn κ)}
    (rounds : ∀ r ∈ t.before.rounds, Chartered past r) : Chartered past r := by
  obtain ⟨⟨r₀, held, charter⟩, -⟩ := step_of_closing h.closes
  exact (rounds r₀ held).congr charter

/-- A commit publishes the round's approval and nothing else. -/
theorem Turn.Commits.messages_eq (h : t.Commits r o) :
    messages t.outputs = published t.surroundings (.approval (r.approval o)) := by
  obtain ⟨-, m, eq⟩ := step_of_closing h.closes
  rw [Turn.outputs, eq, messages_closeRound, if_pos h.committed]

/-- A round that ends with a committing outcome is a commit if its proposal was not marked yet. -/
theorem Turn.commits_of_new (closes : t.before.closing? t.surroundings t.input = some (r, o))
    (committed : o.committed = true) (capacity : 1 ≤ t.before.ledger.executed.capacity)
    (new : t.before.ledger.executed.contains r.id = false) : t.Commits r o := by
  obtain ⟨-, m, eq⟩ := step_of_closing closes
  refine ⟨closes, committed, ?_⟩
  rw [Turn.marked, Turn.after, eq, executed_closeRound _ _ committed, ExecutedWindow.insert_of_new new,
    ExecutedWindow.gained_push capacity new]
  exact List.mem_singleton_self _

end Commits

end Engine

end FleetCoordination
