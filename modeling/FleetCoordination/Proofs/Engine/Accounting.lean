import FleetCoordination.Proofs.Engine.Slots
/-!
# Accounts of an engine

Each submission that an engine takes up and each action that it sets out to apply is in one
counter or still under way. A step is made of entries that keep the accounts, so it keeps them.
-/
namespace FleetCoordination

/-- Number of rounds that came to an outcome. -/
def ConsensusMetrics.resolved (m : ConsensusMetrics) : Nat := m.approved + m.fallbackApproved + m.denied + m.timedOut

/-- The counters that take part in the accounts. -/
def ConsensusMetrics.account (m : ConsensusMetrics) : Nat × Nat × Nat × Nat :=
  (m.proposals, m.resolved, m.commits, m.duplicateCommits)

/-- An action that is to be applied. -/
structure Order where
  id : ProposalId
  action : String
  params : Json

/-- Whether the ledger refuses a new action at once. -/
def Ledger.refuses (l : Ledger) (o : Order) : Bool :=
  match (l.start o.id o.action o.params).2 with
  | .refused _ => true
  | _ => false

/-- What a round that has come to an outcome commits. -/
def Round.order? {κ : Type} (r : Round κ) (o : Outcome) : Option Order :=
  if o.committed then some ⟨r.id, r.proposal.action, r.proposal.params⟩ else none

namespace Engine
variable {κ : Type}

/-! ## What is counted -/

/-- The action that a step sets out to apply. -/
def order? (e : Engine κ) (c : Surroundings) : Input κ → Option Order
  | .apply _ id action params => some ⟨id, action, params⟩
  | .posted (.propagation id) (.ok _) =>
    (e.propagation? id).bind fun p => if p.progress = .posting then some ⟨id, p.action, p.params⟩ else none
  | .approval sender m => if accepts c.leadership sender m.term then some ⟨m.id, m.action, m.params⟩ else none
  | .delivery sender m =>
    if sender = e.self then none
    else if accepts c.leadership sender m.term then some ⟨m.id, m.action, m.params⟩ else none
  | i => (e.closing? c i).bind fun (r, o) => r.order? o

/-- Whether an application fails in a step: the executor fails, or the ledger refuses. -/
def fails (e : Engine κ) (c : Surroundings) : Input κ → Bool
  | .executed ticket (.error _) => (e.applications.find? fun a => a.ticket = ticket).isSome
  | i => (e.order? c i).any e.ledger.refuses

def Input.failedRequest : Input κ → Bool
  | .posted (.proposal _) (.error _) => true
  | _ => false

def Output.unsent : Output κ → Bool
  | .submitted _ (.error (.transport _)) => true
  | _ => false

def Output.commitment? : Output κ → Option ProposalId
  | .announce (.actionCommitted _ id _ _) => some id
  | _ => none

/-- The commits announced in a list of outputs, in order. -/
def commitments (outputs : List (Output κ)) : List ProposalId := outputs.filterMap Output.commitment?

namespace Turn

/-- Whether a turn sets out to apply an action. -/
def applies (t : Turn κ) : Bool := (t.before.order? t.surroundings t.input).isSome

/-- Whether an application fails in a turn. -/
def fails (t : Turn κ) : Bool := t.before.fails t.surroundings t.input

/-- Whether a submission is told in a turn that its request for votes could not be published. -/
def unsent (t : Turn κ) : Bool := t.input.failedRequest && t.outputs.any Output.unsent

end Turn

section Outputs
variable (o : Output κ) (xs ys : List (Output κ))

@[simp] theorem commitments_nil : commitments ([] : List (Output κ)) = [] := rfl

@[simp] theorem commitments_cons : commitments (o :: xs) = o.commitment?.toList ++ commitments xs := by
  cases h : o.commitment? <;> simp [commitments, h]

@[simp] theorem commitments_append : commitments (xs ++ ys) = commitments xs ++ commitments ys := by
  simp [commitments]

@[simp] theorem commitments_publish (c : Surroundings) (env : Envelope) :
    commitments (publish c env : List (Output κ)) = [] := by
  unfold publish
  split <;> rfl

end Outputs

/-! ## Entries -/

/-- The applications that are with the executor or were counted. -/
def undertaken (e : Engine κ) : Nat := e.metrics.commits + e.metrics.duplicateCommits + e.applications.length

/-- The rounds that are under way or came to an outcome. -/
def opened (e : Engine κ) : Nat := e.metrics.resolved + e.rounds.length

/-- What a part of a step does to the accounts, by the actions that it sets out to apply, the
applications that fail in it and the requests for votes that it cannot send. -/
structure Entered (e : Engine κ) (orders failures unsent : Nat) (s : Step κ) : Prop where
  commits : s.1.metrics.commits = e.metrics.commits + (commitments s.2).length
  orders : s.1.undertaken + failures = e.undertaken + orders
  resolved : s.1.metrics.resolved = e.metrics.resolved + (resolutions s.2).length
  proposals : s.1.metrics.proposals + e.opened = e.metrics.proposals + s.1.opened + unsent

namespace Entered
variable {e e' : Engine κ} {orders orders' failures failures' unsent unsent' : Nat} {outputs : List (Output κ)}
  {s : Step κ}

/-- One part of a step after another. -/
theorem trans (h : Entered e orders failures unsent (e', outputs)) (h' : Entered e' orders' failures' unsent' s) :
    Entered e (orders + orders') (failures + failures') (unsent + unsent') (s.1, outputs ++ s.2) where
  commits := by
    have first := h.commits
    have second := h'.commits
    simp only [commitments_append, List.length_append] at first ⊢
    omega
  orders := by
    have first := h.orders
    have second := h'.orders
    dsimp only at first ⊢
    omega
  resolved := by
    have first := h.resolved
    have second := h'.resolved
    simp only [resolutions_append, List.length_append] at first ⊢
    omega
  proposals := by
    have first := h.proposals
    have second := h'.proposals
    dsimp only at first ⊢
    omega

/-- A part that counts nothing and announces neither a commit nor a resolution. -/
theorem quiet (account : e'.metrics.account = e.metrics.account)
    (applications : e'.applications.length = e.applications.length)
    (rounds : e'.rounds.length = e.rounds.length) (commitments : commitments outputs = [])
    (resolutions : resolutions outputs = []) : Entered e 0 0 0 (e', outputs) := by
  simp only [ConsensusMetrics.account, Prod.mk.injEq] at account
  obtain ⟨proposals, resolved, commits, duplicates⟩ := account
  exact ⟨by simp [commits, commitments], by simp [undertaken, commits, duplicates, applications],
    by simp [resolved, resolutions], by simp [opened, proposals, resolved, rounds]⟩

end Entered

/-! ## Parts of a step -/

section Parts
variable (e : Engine κ) (c : Surroundings)

theorem entered_closePropagation (p : Propagation κ) : Entered e 0 0 0 (e.closePropagation c p) := by
  unfold closePropagation
  split <;> exact .quiet rfl rfl rfl rfl rfl

theorem entered_settle (id : ProposalId) (purpose : Purpose κ) (result : Except Fault Bool) :
    Entered e 0 0 0 (e.settle c id purpose result) := by
  cases purpose with
  | propagation =>
    simp only [settle]
    split
    · exact e.entered_closePropagation c _
    · exact .quiet rfl rfl rfl rfl rfl
  | delivery sender => exact .quiet rfl rfl rfl (commitments_publish ..) (resolutions_publish ..)
  | commit | approval | direct => exact .quiet rfl rfl rfl rfl rfl

/-- An action that is set out to apply is a repeat, a commit, a failure, or with the executor. -/
theorem entered_apply (o : Order) (purpose : Purpose κ) :
    Entered e 1 (e.ledger.refuses o).toNat 0 (e.apply c o.id o.action o.params purpose) := by
  unfold apply Ledger.refuses
  generalize e.ledger.start o.id o.action o.params = started
  obtain ⟨ledger, opening⟩ := started
  cases opening with
  | repeated earlier =>
    have counted : Entered e 1 0 0 (countDuplicate { e with ledger }, []) :=
      ⟨rfl, by simp only [undertaken, countDuplicate]; omega, rfl, rfl⟩
    exact counted.trans (entered_settle _ c ..)
  | refused cause =>
    have failed : Entered e 1 1 0 ({ e with ledger }, []) := ⟨rfl, rfl, rfl, rfl⟩
    exact failed.trans (entered_settle _ c ..)
  | reassigned changes =>
    have silent :
        commitments (changes.map fun change => (.announce (.roleReassigned change o.id (time c)) : Output κ)) = [] ∧
        resolutions (changes.map fun change => (.announce (.roleReassigned change o.id (time c)) : Output κ)) = [] := by
      constructor <;> exact List.filterMap_eq_nil_iff.mpr fun out ho => by
        obtain ⟨change, -, rfl⟩ := List.mem_map.mp ho
        rfl
    have counted (who : Engine κ) : Entered e 1 0 0 (countCommit { e with ledger },
        changes.map (fun change => .announce (.roleReassigned change o.id (time c))) ++
          [who.committed c o.id o.action]) := by
      refine ⟨?_, ?_, ?_, rfl⟩
      · rw [commitments_append, silent.1]
        rfl
      · simp only [undertaken, countCommit]
        omega
      · rw [resolutions_append, silent.2]
        rfl
    dsimp only
    rw [List.append_cons]
    exact (counted _).trans (entered_settle _ c ..)
  | handed =>
    refine ⟨rfl, ?_, rfl, rfl⟩
    simp only [undertaken, List.length_append, List.length_singleton, Bool.toNat_false]
    omega

variable {e} in
/-- A part that counts nothing, and then an action. -/
theorem Entered.apply {e' : Engine κ} {sent : List (Output κ)} (h : Entered e 0 0 0 (e', sent))
    (ledger : e'.ledger = e.ledger) (o : Order) (purpose : Purpose κ) :
    Entered e 1 (e.ledger.refuses o).toNat 0
      ((e'.apply c o.id o.action o.params purpose).1, sent ++ (e'.apply c o.id o.action o.params purpose).2) := by
  have applied := h.trans (e'.entered_apply c o purpose)
  rwa [ledger, Nat.zero_add, Nat.zero_add] at applied

theorem undertaken_release {a : Application κ} (once : (e.applications.map (·.ticket)).Nodup)
    (open_ : a ∈ e.applications) (ended : Except ExecutionFault Unit) :
    (e.release a ended).undertaken + 1 = e.undertaken := by
  have left := (perm_filter_ne once open_).length_eq
  rw [List.length_cons] at left
  simp only [undertaken, release, left]
  omega

theorem entered_executed (once : (e.applications.map (·.ticket)).Nodup) (ticket : Nat)
    (ended : Except ExecutionFault Unit) :
    Entered e 0 (e.fails c (.executed ticket ended)).toNat 0 (e.executed c ticket ended) := by
  unfold executed
  cases found : e.applications.find? fun a => a.ticket = ticket with
  | none =>
    have unfailed : e.fails c (.executed ticket ended) = false := by
      cases ended with
      | ok => rfl
      | error cause => simp only [fails, found, Option.isSome_none]
    rw [unfailed]
    exact .quiet rfl rfl rfl rfl rfl
  | some a =>
    have left := e.undertaken_release once (List.mem_of_find?_eq_some found) ended
    cases ended with
    | ok done =>
      have counted (who : Engine κ) :
          Entered e 0 0 0 ((e.release a (.ok done)).countCommit, [who.committed c a.id a.action]) := by
        refine ⟨rfl, ?_, rfl, rfl⟩
        simp only [undertaken, countCommit] at left ⊢
        omega
      exact (counted _).trans (entered_settle _ c ..)
    | error cause =>
      have failed : Entered e 0 1 0 (e.release a (.error cause), []) := ⟨rfl, left, rfl, rfl⟩
      simp only [fails, found, Option.isSome_some]
      exact failed.trans (entered_settle _ c ..)

theorem resolved_countOutcome (m : ConsensusMetrics) (o : Outcome) : (countOutcome m o).resolved = m.resolved + 1 := by
  cases o <;> simp only [countOutcome, ConsensusMetrics.resolved] <;> omega

theorem undertaken_endRound (r : Round κ) (o : Outcome) : (e.endRound r o).undertaken = e.undertaken := by
  cases o <;> rfl

section Rounds
variable {e} {r r₀ : Round κ} (once : (e.rounds.map Round.id).Nodup) (held : r₀ ∈ e.rounds)
  (charter : r.charter = r₀.charter)
include once held charter

theorem entered_endRound (o : Outcome) {sent : List (Output κ)}
    (silent : commitments sent = [] ∧ resolutions sent = []) :
    Entered e 0 0 0 (e.endRound r o, resolved c r o :: sent) where
  commits := by
    rw [commitments_cons, silent.1]
    cases o <;> rfl
  orders := congrArg (· + 0) (e.undertaken_endRound r o)
  resolved := by
    rw [resolutions_cons, silent.2]
    exact resolved_countOutcome ..
  proposals := by
    have kept : (e.endRound r o).metrics.proposals = e.metrics.proposals := by cases o <;> rfl
    have counted : (e.endRound r o).metrics.resolved = e.metrics.resolved + 1 := resolved_countOutcome ..
    have left : (e.endRound r o).rounds.length + 1 = e.rounds.length := by
      have dropped := (callers_dropRound once held charter).length_eq.symm
      rwa [List.length_cons, List.length_map, List.length_map] at dropped
    simp only [opened, kept, counted]
    omega

theorem entered_closeRound (o : Outcome) :
    Entered e (r.order? o).isSome.toNat ((r.order? o).any e.ledger.refuses).toNat 0 (e.closeRound c r o) := by
  unfold closeRound Round.order?
  dsimp only
  split
  · have silent : commitments ((e.endRound r o).broadcast c (.approval (r.approval o))) = [] ∧
        resolutions ((e.endRound r o).broadcast c (.approval (r.approval o))) = [] :=
      ⟨commitments_publish .., resolutions_publish ..⟩
    exact (entered_endRound c once held charter o silent).apply c rfl ⟨r.id, r.proposal.action, r.proposal.params⟩
      (.commit (r.result o) r.caller)
  · exact entered_endRound c once held charter o ⟨rfl, rfl⟩

theorem entered_advanceRound :
    let order := (r.outcome? e.fallback c.now).bind r.order?
    Entered e order.isSome.toNat (order.any e.ledger.refuses).toNat 0 (e.advanceRound c r) := by
  unfold advanceRound
  split
  · next o known =>
    simp only [known, Option.bind_some]
    exact entered_closeRound c once held charter o
  · next open_ =>
    simp only [open_, Option.bind_none]
    exact .quiet rfl rfl (List.length_map ..) rfl rfl

end Rounds

theorem entered_submit (caller : κ) (p : Proposal) : Entered e 0 0 0 (e.submit c caller p) := by
  unfold submit
  dsimp only
  split
  · exact .quiet rfl rfl rfl rfl rfl
  split
  · exact .quiet rfl rfl rfl rfl rfl
  split
  · exact .quiet rfl rfl rfl rfl rfl
  · refine ⟨rfl, rfl, rfl, ?_⟩
    simp only [opened, ConsensusMetrics.resolved, List.length_append, List.length_singleton]
    omega

/-- A round that is given up counts as one whose request could not be sent. -/
theorem entered_requestPosted (once : (e.rounds.map Round.id).Nodup) (id : ProposalId)
    (ended : Except TransportFault Unit) :
    Entered e 0 0 (Turn.unsent ⟨e, c, .posted (.proposal id) ended⟩).toNat (e.requestPosted id ended) := by
  have told : Turn.unsent ⟨e, c, .posted (.proposal id) ended⟩ =
      (Input.failedRequest (κ := κ) (.posted (.proposal id) ended) &&
        (e.requestPosted id ended).2.any Output.unsent) := rfl
  rw [told]
  obtain eq | ⟨r, found, -, ⟨rfl, eq⟩ | ⟨f, rfl, eq⟩⟩ := e.requestPosted_cases id ended
  · rw [eq, List.any_nil, Bool.and_false]
    exact .quiet rfl rfl rfl rfl rfl
  · rw [eq]
    exact .quiet rfl rfl (List.length_map ..) rfl rfl
  · obtain rfl := id_of_round? found
    have left := (callers_dropRound once (List.mem_of_find?_eq_some found) rfl).length_eq
    rw [List.length_cons, List.length_map, List.length_map] at left
    have metrics : (e.dropRound r.id).metrics = e.metrics := rfl
    rw [eq]
    refine ⟨rfl, rfl, rfl, ?_⟩
    simp only [opened, refuse, metrics, left, Input.failedRequest, List.any_cons, List.any_nil, Output.unsent,
      Bool.or_false, Bool.and_true, Bool.toNat_true]
    omega

theorem entered_propagate (caller : κ) (id : ProposalId) (action : String) (params : Json) (timeout : Nat) :
    Entered e 0 0 0 (e.propagate c caller id action params timeout) := by
  obtain ⟨-, eq⟩ | ⟨-, eq⟩ := e.propagate_cases c caller id action params timeout
  · rw [eq]
    exact .quiet rfl rfl rfl rfl rfl
  · rw [eq]
    exact .quiet rfl rfl rfl rfl rfl

/-- Word that the message of a propagation is out sets out to apply its action; other word on it
ends the propagation or does nothing. -/
theorem order_propagationPosted (id : ProposalId) (ended : Except TransportFault Unit) :
    e.order? c (.posted (.propagation id) ended) = none ∧
        (e.propagationPosted c id ended = (e, []) ∨ ∃ caller f,
          e.propagationPosted c id ended = (e.dropPropagation id).declinePropagation caller f) ∨
      ∃ p : Propagation κ, e.order? c (.posted (.propagation id) ended) = some ⟨id, p.action, p.params⟩ ∧
        e.propagationPosted c id ended = (e.setPropagation p.sent).apply c id p.action p.params .propagation := by
  cases held : e.propagation? id with
  | none =>
    refine .inl ⟨?_, .inl (by simp only [propagationPosted, held])⟩
    cases ended with
    | error => rfl
    | ok => simp only [order?, held, Option.bind_none]
  | some p =>
    by_cases waits : p.progress = .posting
    · cases ended with
      | error f => exact .inl ⟨rfl, .inr ⟨p.caller, .transport f, by simp only [propagationPosted, held, if_pos waits]⟩⟩
      | ok => exact .inr ⟨p, by simp [order?, held, waits], by simp only [propagationPosted, held, if_pos waits]⟩
    · refine .inl ⟨?_, .inl (by simp only [propagationPosted, held, if_neg waits])⟩
      cases ended with
      | error => rfl
      | ok => simp [order?, held, waits]

theorem entered_propagationPosted (id : ProposalId) (ended : Except TransportFault Unit) :
    let order := e.order? c (.posted (.propagation id) ended)
    Entered e order.isSome.toNat (order.any e.ledger.refuses).toNat 0 (e.propagationPosted c id ended) := by
  obtain ⟨idle, eq | ⟨caller, f, eq⟩⟩ | ⟨p, asked, eq⟩ := e.order_propagationPosted c id ended
  · rw [idle, eq]
    exact .quiet rfl rfl rfl rfl rfl
  · rw [idle, eq]
    exact .quiet rfl rfl rfl rfl rfl
  · have sent : Entered e 0 0 0 (e.setPropagation p.sent, []) := .quiet rfl rfl rfl rfl rfl
    rw [asked, eq]
    exact sent.apply c rfl ⟨id, p.action, p.params⟩ .propagation

variable {e} in
theorem order_of_advanced {i : Input κ} {r : Round κ} (moved : e.advanced? i = some r) :
    ((e.closing? c i).bind fun (r, o) => r.order? o) = (r.outcome? e.fallback c.now).bind r.order? := by
  rw [closing?, moved, Option.bind_some]
  cases r.outcome? e.fallback c.now <;> rfl

/-- An input that moves a round on, or leaves the engine as it is, sets out to apply what the
round commits. -/
theorem entered_moving {e : Engine κ} (once : (e.rounds.map Round.id).Nodup) {i : Input κ}
    (order : e.order? c i = (e.closing? c i).bind fun (r, o) => r.order? o)
    (still : e.advanced? i = none → e.step c i = (e, [])) :
    Entered e (e.order? c i).isSome.toNat ((e.order? c i).any e.ledger.refuses).toNat 0 (e.step c i) := by
  cases moved : e.advanced? i with
  | some r =>
    obtain ⟨⟨r₀, held, charter⟩, n, eq⟩ := step_of_advanced_counting moved c
    have counted : Entered e 0 0 0 ({ e with metrics := { e.metrics with equivocations := n } }, []) :=
      .quiet rfl rfl rfl rfl rfl
    have advanced := counted.trans (entered_advanceRound c once held charter)
    rw [order, order_of_advanced c moved, eq]
    rwa [Nat.zero_add, Nat.zero_add] at advanced
  | none =>
    rw [order, still moved, closing?, moved]
    exact .quiet rfl rfl rfl rfl rfl

/-- A step keeps the accounts. -/
theorem entered_step {e : Engine κ} (rounds : (e.rounds.map Round.id).Nodup)
    (tickets : (e.applications.map (·.ticket)).Nodup) (i : Input κ) :
    let t : Turn κ := ⟨e, c, i⟩
    Entered e t.applies.toNat t.fails.toNat t.unsent.toNat (e.step c i) := by
  intro t
  cases i with
  | submit caller p => exact e.entered_submit c caller p
  | propagate caller id action params timeout => exact e.entered_propagate c caller id action params timeout
  | request caller sender m =>
    simp only [step, request]
    split <;> exact .quiet rfl rfl rfl rfl rfl
  | vote v =>
    simp only [step, vote]
    split
    · exact .quiet rfl rfl (List.length_map ..) rfl rfl
    · exact .quiet rfl rfl rfl rfl rfl
  | approval sender m =>
    simp only [step, approval, t, Turn.applies, Turn.fails, Engine.fails, order?]
    split
    · exact e.entered_apply c ⟨m.id, m.action, m.params⟩ .approval
    · exact .quiet rfl rfl rfl rfl rfl
  | delivery sender m =>
    simp only [step, delivery, t, Turn.applies, Turn.fails, Engine.fails, order?]
    split
    · exact .quiet rfl rfl rfl rfl rfl
    split
    · exact e.entered_apply c ⟨m.id, m.action, m.params⟩ (.delivery sender)
    · exact .quiet rfl rfl rfl rfl rfl
  | ack a =>
    simp only [step, ack]
    split <;> exact .quiet rfl rfl rfl rfl rfl
  | apply caller id action params => exact e.entered_apply c ⟨id, action, params⟩ (.direct caller)
  | posted errand ended =>
    cases errand with
    | proposal id => exact e.entered_requestPosted c rounds id ended
    | propagation id =>
      have failed : t.fails = (e.order? c (.posted (.propagation id) ended)).any e.ledger.refuses := rfl
      rw [failed]
      exact e.entered_propagationPosted c id ended
  | executed ticket ended => exact e.entered_executed c tickets ticket ended
  | readAck id =>
    simp only [step, readAck]
    split
    · exact .quiet rfl rfl rfl rfl rfl
    · split
      · exact e.entered_closePropagation c _
      · exact .quiet rfl rfl rfl rfl rfl
  | readVote id => exact entered_moving c rounds rfl readVote_of_still
  | evaluated seat j =>
    cases seat with
    | proposer id => exact entered_moving c rounds rfl evaluated_of_still
    | peer sender id caller =>
      simp only [step, evaluated, reply]
      exact .quiet rfl rfl rfl (by simp [Output.commitment?]) (by simp [Output.resolution?])

end Parts

/-! ## Histories -/

/-- How the counters of an engine stand to what has happened to it. -/
structure Accounted (turns : List (Turn κ)) (e : Engine κ) : Prop where
  /-- A proposal came to an outcome, has its round under way, or was never sent. -/
  proposals : e.metrics.proposals = e.metrics.approved + e.metrics.fallbackApproved + e.metrics.denied +
    e.metrics.timedOut + e.rounds.length + turns.countP Turn.unsent
  /-- Outcomes are announced. -/
  resolutions : (turns.flatMap fun t => resolutions t.outputs).length =
    e.metrics.approved + e.metrics.fallbackApproved + e.metrics.denied + e.metrics.timedOut
  /-- What was to be applied was committed, was a duplicate, has failed, or is with the executor. -/
  orders : turns.countP Turn.applies = e.metrics.commits + e.metrics.duplicateCommits + turns.countP Turn.fails +
    e.applications.length
  /-- Commits are announced. -/
  commits : (turns.flatMap fun t => commitments t.outputs).length = e.metrics.commits
  /-- A commit is announced in the turn that counts it. -/
  prompt : ∀ t ∈ turns, t.after.metrics.commits = t.before.metrics.commits + (commitments t.outputs).length

theorem countP_snoc {α : Type} (p : α → Bool) (xs : List α) (x : α) :
    (xs ++ [x]).countP p = xs.countP p + (p x).toNat := by
  cases h : p x <;> simp [List.countP_append, h]

theorem Accounted.snoc {turns : List (Turn κ)} {t : Turn κ} (h : Accounted turns t.before)
    (entered : Entered t.before t.applies.toNat t.fails.toNat t.unsent.toNat (t.after, t.outputs)) :
    Accounted (turns ++ [t]) t.after := by
  obtain ⟨commits, orders, resolved, proposals⟩ := entered
  simp only [undertaken, opened, ConsensusMetrics.resolved] at commits orders resolved proposals
  refine ⟨?_, ?_, ?_, ?_, fun u hu => ?_⟩
  · have past := h.proposals
    rw [countP_snoc]
    omega
  · have past := h.resolutions
    rw [List.flatMap_append, List.flatMap_singleton, List.length_append]
    omega
  · have past := h.orders
    rw [countP_snoc, countP_snoc]
    omega
  · have past := h.commits
    rw [List.flatMap_append, List.flatMap_singleton, List.length_append]
    omega
  · rcases List.mem_append.mp hu with earlier | last
    · exact h.prompt u earlier
    · rw [List.mem_singleton.mp last]
      exact commits

/-- Whatever happens to an engine, its counters account for every proposal and every action that
was to be applied. -/
theorem consensus_accounts {self : AgentId} {settings : ConsensusSettings} {fallback : Bool} {turns : List (Turn κ)}
    {e : Engine κ} (h : History (create self settings fallback) turns e) : Accounted turns e := by
  induction h with
  | start => exact ⟨rfl, rfl, rfl, rfl, by simp⟩
  | @step turns e past c i ih =>
    have rounds : (e.rounds.map Round.id).Nodup := e.ids_slots ▸ past.rounds_filled.once
    exact ih.snoc (t := ⟨e, c, i⟩) (entered_step c rounds past.kept.tickets i)

/-- One proposal waits, one was not sent; one action was committed, came again, one fails and one
is with the executor, as a propagation whose message is out. -/
theorem consensus_accounts_mixed : ∃ turns e, History (create "A" {} true : Engine Nat) turns e ∧
    (e.metrics.proposals = 2 ∧ e.rounds.length = 1 ∧ turns.countP Turn.unsent = 1) ∧
      (turns.countP Turn.applies = 4 ∧ e.metrics.commits = 1 ∧ e.metrics.duplicateCommits = 1 ∧
        turns.countP Turn.fails = 1 ∧ e.applications.length = 1) ∧ Accounted turns e := by
  have origin : History (create "A" {} true : Engine Nat) [] _ := .start
  have proposed := ((origin.step alone (.submit 0 petition)).step alone
    (.submit 1 { petition with id := .ofNat 2 })).step alone (.posted (.proposal (.ofNat 2)) (.error .closed))
  have applied := ((proposed.step alone (.apply 2 (.ofNat 3) "noop" .null)).step alone
    (.executed 0 (.ok ()))).step alone (.apply 3 (.ofNat 3) "noop" .null)
  have refused := applied.step alone (.apply 4 (.ofNat 4) RoleReassignment.action .null)
  have sent := (refused.step alone (.propagate 5 (.ofNat 5) "noop" .null 1000)).step alone
    (.posted (.propagation (.ofNat 5)) (.ok ()))
  exact ⟨_, _, sent, by decide, by decide, consensus_accounts sent⟩

end Engine
end FleetCoordination
