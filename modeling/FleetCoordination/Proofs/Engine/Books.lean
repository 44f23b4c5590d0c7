import FleetCoordination.Proofs.Engine.Cases
/-!
# The books of an engine

An engine's books are its ledger and the applications that are with the executor. A step
makes one entry in them at most. Reports are what its outputs tell of applications.
-/
namespace FleetCoordination.Engine
variable {κ : Type}

inductive Report
  | handed (ticket : Nat)
  | reassigned (id : ProposalId)
  | committed (id : ProposalId)
  | acknowledged (a : ActionAck)
  deriving DecidableEq

def Output.report? : Output κ → Option Report
  | .send e _ =>
    match e.message with
    | .ack a => some (.acknowledged a)
    | _ => none
  | .announce (.actionCommitted _ id _ _) => some (.committed id)
  | .announce (.roleReassigned _ id _) => some (.reassigned id)
  | .execute ticket _ _ => some (.handed ticket)
  | _ => none

def reports (outputs : List (Output κ)) : List Report := outputs.filterMap Output.report?

@[simp] theorem reports_nil : reports ([] : List (Output κ)) = [] := rfl

@[simp] theorem reports_cons (o : Output κ) (outputs : List (Output κ)) :
    reports (o :: outputs) = o.report?.toList ++ reports outputs := by
  cases h : o.report? <;> simp [reports, h]

@[simp] theorem reports_append (xs ys : List (Output κ)) : reports (xs ++ ys) = reports xs ++ reports ys := by
  simp [reports]

structure Books (κ : Type) where
  self : AgentId
  ledger : Ledger
  applications : List (Application κ)
  tickets : Nat

def books (e : Engine κ) : Books κ :=
  { self := e.self, ledger := e.ledger, applications := e.applications, tickets := e.tickets }

/-- What the end of an application tells its purpose: a delivery is acknowledged unless the
bus is out of order. -/
def answer (self : AgentId) (c : Surroundings) (id : ProposalId) (applied : Bool) : Purpose κ → List Report
  | .delivery _ => if c.bus.isNone then [.acknowledged { id, agent := self, applied }] else []
  | _ => []

/-- What a step can do to the books, with the reports of it. `asked` tells which ids may be
set about in the step, and why. -/
inductive Entry (c : Surroundings) (asked : ProposalId → Purpose κ → Prop) (b : Books κ) :
    List Report → Books κ → Prop
  | idle : Entry c asked b [] b
  | repeated (id : ProposalId) (purpose : Purpose κ) (why : asked id purpose)
      (known : b.ledger.executed.contains id = true) :
      Entry c asked b (answer b.self c id (!b.ledger.failed.contains id) purpose) b
  | handed (id : ProposalId) (action : String) (purpose : Purpose κ) (new : b.ledger.executed.contains id = false) :
      Entry c asked b [.handed b.tickets]
        { b with
          ledger := b.ledger.enter id
          applications := b.applications ++ [{ ticket := b.tickets, id, action, purpose }]
          tickets := b.tickets + 1 }
  | reassigned (id : ProposalId) (changes : List RoleChange) (purpose : Purpose κ)
      (new : b.ledger.executed.contains id = false) :
      Entry c asked b (changes.map (fun _ => .reassigned id) ++ .committed id :: answer b.self c id true purpose)
        { b with ledger := { b.ledger.enter id with roles := Reassignment.reassign b.ledger.roles changes } }
  | refused (id : ProposalId) (purpose : Purpose κ) (new : b.ledger.executed.contains id = false) :
      Entry c asked b (answer b.self c id false purpose) { b with ledger := (b.ledger.enter id).fail id }
  | succeeded (a : Application κ) (open_ : a ∈ b.applications) :
      Entry c asked b (.committed a.id :: answer b.self c a.id true a.purpose)
        { b with applications := b.applications.filter fun a' => a'.ticket ≠ a.ticket }
  | failed (a : Application κ) (open_ : a ∈ b.applications) :
      Entry c asked b (answer b.self c a.id false a.purpose)
        { b with
          ledger := b.ledger.fail a.id
          applications := b.applications.filter fun a' => a'.ticket ≠ a.ticket }

/-- Whether an input sets about an id for a purpose: a delivery is one of the known leader. -/
def Input.Asks (e : Engine κ) (c : Surroundings) (i : Input κ) (id : ProposalId) : Purpose κ → Prop
  | .delivery sender =>
    sender ≠ e.self ∧ ∃ m, i = .delivery sender m ∧ accepts c.leadership sender m.term = true ∧ m.id = id
  | _ => True

/-! ## Parts that keep the books -/

section Keep
variable (e : Engine κ) (c : Surroundings)

theorem reports_publish (env : Envelope) (message : ∀ a, env.message ≠ .ack a) :
    reports (publish c env : List (Output κ)) = [] := by
  have quiet : Output.report? (.send env .atLeastOnce : Output κ) = none := by
    cases h : env.message <;> simp only [Output.report?, h]
    exact (message _ h).elim
  unfold publish
  split
  · rfl
  · simp [quiet]

theorem books_closePropagation (p : Propagation κ) : (e.closePropagation c p).1.books = e.books := by
  unfold closePropagation
  split <;> rfl

theorem reports_closePropagation (p : Propagation κ) : reports (e.closePropagation c p).2 = [] := by
  unfold closePropagation
  split <;> rfl

theorem books_settle (id : ProposalId) (purpose : Purpose κ) (result : Except Fault Bool) :
    (e.settle c id purpose result).1.books = e.books := by
  unfold settle
  split
  · rfl
  · split
    · exact books_closePropagation ..
    · rfl
  · rfl
  · rfl
  · rfl

theorem reports_settle (id : ProposalId) (purpose : Purpose κ) (result : Except Fault Bool) :
    reports (e.settle c id purpose result).2 = answer e.self c id result.isOk purpose := by
  cases purpose with
  | propagation =>
    simp only [settle, answer]
    split
    · exact reports_closePropagation ..
    · rfl
  | delivery sender =>
    simp only [settle, reply, publish, answer]
    cases c.bus <;> rfl
  | commit | approval | direct => rfl

end Keep

/-! ## The entries of a step -/

section Entries
variable (e : Engine κ) (c : Surroundings) {asked : ProposalId → Purpose κ → Prop}

theorem reports_reassigned (changes : List RoleChange) (id : ProposalId) :
    reports (changes.map fun change => (.announce (.roleReassigned change id (time c)) : Output κ)) =
      changes.map fun _ => .reassigned id := by
  induction changes with
  | nil => rfl
  | cons change changes ih => simp [Output.report?, ih]

theorem isOk_earlier (l : Ledger) (id : ProposalId) :
    (((l.earlier id).mapError Fault.execution).map fun _ => false).isOk = !l.failed.contains id := by
  unfold Ledger.earlier
  cases l.failed.contains id <;> rfl

theorem entry_apply (id : ProposalId) (action : String) (params : Json) (purpose : Purpose κ)
    (why : asked id purpose) :
    Entry c asked e.books (reports (e.apply c id action params purpose).2)
      (e.apply c id action params purpose).1.books := by
  cases known : e.ledger.executed.contains id with
  | true =>
    simp only [apply, Ledger.start_of_contains known, books_settle, reports_settle, isOk_earlier]
    exact .repeated id purpose why known
  | false =>
    by_cases roles : action = RoleReassignment.action
    · cases read : RoleReassignment.ofJson? params with
      | some r =>
        simp only [apply, Ledger.start_of_new known, if_pos roles, Ledger.reassign, read, books_settle, reports_append,
          reports_cons, reports_reassigned, reports_settle]
        exact .reassigned id r.changes purpose known
      | none =>
        simp only [apply, Ledger.start_of_new known, if_pos roles, Ledger.reassign, read, books_settle, reports_settle]
        exact .refused id purpose known
    · simp only [apply, Ledger.start_of_new known, if_neg roles]
      exact .handed id action purpose known

theorem entry_executed (ticket : Nat) (ended : Except ExecutionFault Unit) :
    Entry c asked e.books (reports (e.executed c ticket ended).2) (e.executed c ticket ended).1.books := by
  unfold executed
  split
  · exact .idle
  · next a found =>
    have open_ : a ∈ e.books.applications := List.mem_of_find?_eq_some found
    obtain rfl : a.ticket = ticket := by simpa using List.find?_some found
    split
    · simp only [books_settle, reports_cons, reports_settle]
      exact .succeeded a open_
    · simp only [books_settle, reports_settle]
      exact .failed a open_

theorem entry_closeRound (r : Round κ) (o : Outcome) (why : ∀ id result caller, asked id (.commit result caller)) :
    Entry c asked e.books (reports (e.closeRound c r o).2) (e.closeRound c r o).1.books := by
  unfold closeRound
  split
  · have sent : reports ((e.endRound r o).broadcast c (.approval (r.approval o))) = [] :=
      reports_publish c _ (by simp [Envelope.broadcast])
    have resolution : (resolved c r o : Output κ).report? = none := rfl
    rw [reports_cons, reports_append, sent, resolution]
    exact (e.endRound r o).entry_apply c _ _ _ _ (why ..)
  · exact .idle

theorem entry_advanceRound (r : Round κ) (why : ∀ id result caller, asked id (.commit result caller)) :
    Entry c asked e.books (reports (e.advanceRound c r).2) (e.advanceRound c r).1.books := by
  unfold advanceRound
  split
  · exact e.entry_closeRound c r _ why
  · exact .idle

theorem entry_submit (caller : κ) (p : Proposal) :
    Entry c asked e.books (reports (e.submit c caller p).2) (e.submit c caller p).1.books := by
  obtain ⟨m, f, eq⟩ | ⟨-, m, eq⟩ := e.submit_cases c caller p
  · rw [eq]
    exact .idle
  · rw [eq]
    exact .idle

theorem entry_requestPosted (id : ProposalId) (ended : Except TransportFault Unit) :
    Entry c asked e.books (reports (e.requestPosted id ended).2) (e.requestPosted id ended).1.books := by
  obtain eq | ⟨r, -, -, ⟨-, eq⟩ | ⟨f, -, eq⟩⟩ := e.requestPosted_cases id ended
  · rw [eq]
    exact .idle
  · rw [eq]
    exact .idle
  · rw [eq]
    exact .idle

theorem entry_readVote (id : ProposalId) (why : ∀ id result caller, asked id (.commit result caller)) :
    Entry c asked e.books (reports (e.readVote c id).2) (e.readVote c id).1.books := by
  unfold readVote
  split
  · exact .idle
  split
  · split
    · next r' record _ => exact (e.countVote record).entry_advanceRound c r' why
    · exact e.entry_advanceRound c _ why
  · exact .idle

theorem entry_evaluated (seat : Seat κ) (j : Judgement) (why : ∀ id result caller, asked id (.commit result caller)) :
    Entry c asked e.books (reports (e.evaluated c seat j).2) (e.evaluated c seat j).1.books := by
  unfold evaluated
  split
  · split
    · split
      · exact e.entry_advanceRound c _ why
      · exact .idle
    · exact .idle
  · have sent recipient v : reports (e.reply c recipient (.proposalVote v)) = [] :=
      reports_publish c _ (by simp [Envelope.direct])
    rw [reports_append, sent]
    exact .idle

theorem entry_propagate (caller : κ) (id : ProposalId) (action : String) (params : Json) (timeout : Nat) :
    Entry c asked e.books (reports (e.propagate c caller id action params timeout).2)
      (e.propagate c caller id action params timeout).1.books := by
  obtain ⟨-, eq⟩ | ⟨-, eq⟩ := e.propagate_cases c caller id action params timeout
  · rw [eq]
    exact .idle
  · rw [eq]
    exact .idle

theorem entry_propagationPosted (id : ProposalId) (ended : Except TransportFault Unit) (why : asked id .propagation) :
    Entry c asked e.books (reports (e.propagationPosted c id ended).2) (e.propagationPosted c id ended).1.books := by
  obtain eq | ⟨p, -, -, ⟨-, eq⟩ | ⟨f, -, eq⟩⟩ := e.propagationPosted_cases c id ended
  · rw [eq]
    exact .idle
  · rw [eq]
    exact (e.setPropagation p.sent).entry_apply c _ _ _ _ why
  · rw [eq]
    exact .idle

theorem entry_step (i : Input κ) :
    Entry c (i.Asks e c) e.books (reports (e.step c i).2) (e.step c i).1.books := by
  cases i with
  | submit caller p => exact e.entry_submit c caller p
  | propagate caller id action params timeout => exact e.entry_propagate c caller id action params timeout
  | request caller sender m =>
    simp only [step, request]
    split <;> exact .idle
  | vote v =>
    simp only [step, vote]
    split <;> exact .idle
  | approval sender m =>
    simp only [step, approval]
    split
    · exact e.entry_apply c _ _ _ _ trivial
    · exact .idle
  | delivery sender m =>
    simp only [step, delivery]
    split
    · exact .idle
    · next other =>
      split
      · next accepted => exact e.entry_apply c _ _ _ _ ⟨other, m, rfl, accepted, rfl⟩
      · exact .idle
  | ack a =>
    simp only [step, ack]
    split <;> exact .idle
  | apply caller id action params => exact e.entry_apply c _ _ _ _ trivial
  | posted errand ended =>
    cases errand with
    | proposal id => exact e.entry_requestPosted c id ended
    | propagation id => exact e.entry_propagationPosted c id ended trivial
  | evaluated seat j => exact e.entry_evaluated c seat j fun _ _ _ => trivial
  | executed ticket ended => exact e.entry_executed c ticket ended
  | readVote id => exact e.entry_readVote c id fun _ _ _ => trivial
  | readAck id =>
    simp only [step, readAck]
    split
    · exact .idle
    · split
      · rw [reports_closePropagation, books_closePropagation]
        exact .idle
      · exact .idle

end Entries

end FleetCoordination.Engine
