import FleetCoordination.Proofs.Engine.Accounting
/-!
# Books of an order

Unless it ends an application, a step does to the books what the action that it sets out to apply does
to them, and nothing if there is none.
-/
namespace FleetCoordination.Engine
variable {κ : Type}

/-- The books once an action is set about. -/
def Books.begin (b : Books κ) (o : Order) (purpose : Purpose κ) : Books κ :=
  match b.ledger.start o.id o.action o.params with
  | (ledger, .handed) =>
    { b with
      ledger
      applications := b.applications ++ [{ ticket := b.tickets, id := o.id, action := o.action, purpose }]
      tickets := b.tickets + 1 }
  | (ledger, _) => { b with ledger }

/-- The books once the executor has ended an application. -/
def Books.release (b : Books κ) (a : Application κ) (ended : Except ExecutionFault Unit) : Books κ :=
  { b with
    ledger := b.ledger.conclude a.id ended
    applications := b.applications.filter fun a' => a'.ticket ≠ a.ticket }

/-- Whether books are left as an order leaves them, or as they are if there is none. -/
inductive Books.Obeys (b : Books κ) : Option Order → Books κ → Prop
  | idle : Obeys b none b
  | begun (o : Order) (purpose : Purpose κ) : Obeys b (some o) (b.begin o purpose)

section Parts
variable (e : Engine κ) (c : Surroundings)

theorem obeys_apply (o : Order) (purpose : Purpose κ) :
    e.books.Obeys (some o) (e.apply c o.id o.action o.params purpose).1.books := by
  have begun : (e.apply c o.id o.action o.params purpose).1.books = e.books.begin o purpose := by
    unfold apply Books.begin
    rw [show e.books.ledger = e.ledger from rfl]
    generalize e.ledger.start o.id o.action o.params = started
    obtain ⟨ledger, opening⟩ := started
    cases opening with
    | repeated | reassigned | refused => exact books_settle ..
    | handed => rfl
  exact begun ▸ .begun o purpose

theorem obeys_advanceRound (r : Round κ) :
    e.books.Obeys ((r.outcome? e.fallback c.now).bind r.order?) (e.advanceRound c r).1.books := by
  unfold advanceRound
  cases r.outcome? e.fallback c.now with
  | none => exact .idle
  | some o =>
    simp only [Option.bind_some, Round.order?, closeRound]
    split
    · exact (e.endRound r o).obeys_apply c ⟨r.id, r.proposal.action, r.proposal.params⟩ _
    · exact .idle

/-- An input that moves a round on, or leaves the engine as it is, sets about what the round commits. -/
theorem obeys_moving {i : Input κ} (order : e.order? c i = (e.closing? c i).bind fun (r, o) => r.order? o)
    (still : e.advanced? i = none → e.step c i = (e, [])) : e.books.Obeys (e.order? c i) (e.step c i).1.books := by
  cases moved : e.advanced? i with
  | some r =>
    obtain ⟨-, m, eq⟩ := step_of_advanced moved c
    rw [order, order_of_advanced c moved, eq]
    exact obeys_advanceRound { e with metrics := m } c r
  | none =>
    rw [order, still moved, closing?, moved]
    exact .idle

theorem obeys_propagationPosted (id : ProposalId) (ended : Except TransportFault Unit) :
    e.books.Obeys (e.order? c (.posted (.propagation id) ended)) (e.propagationPosted c id ended).1.books := by
  obtain ⟨idle, eq | ⟨caller, f, eq⟩⟩ | ⟨p, asked, eq⟩ := e.order_propagationPosted c id ended
  · rw [idle, eq]
    exact .idle
  · rw [idle, eq]
    exact .idle
  · rw [asked, eq]
    exact (e.setPropagation p.sent).obeys_apply c ⟨id, p.action, p.params⟩ .propagation

theorem obeys_step {i : Input κ} (going : ∀ ticket ended, i ≠ .executed ticket ended) :
    e.books.Obeys (e.order? c i) (e.step c i).1.books := by
  cases i with
  | submit caller p =>
    obtain ⟨m, f, eq⟩ | ⟨-, m, eq⟩ := e.submit_cases c caller p
    · rw [step, eq]
      exact .idle
    · rw [step, eq]
      exact .idle
  | propagate caller id action params timeout =>
    obtain ⟨-, eq⟩ | ⟨-, eq⟩ := e.propagate_cases c caller id action params timeout
    · rw [step, eq]
      exact .idle
    · rw [step, eq]
      exact .idle
  | request caller sender m =>
    simp only [step, request]
    split <;> exact .idle
  | vote v =>
    simp only [step, vote]
    split <;> exact .idle
  | approval sender m =>
    simp only [step, approval, order?]
    split
    · exact e.obeys_apply c ⟨m.id, m.action, m.params⟩ .approval
    · exact .idle
  | delivery sender m =>
    simp only [step, delivery, order?]
    split
    · exact .idle
    split
    · exact e.obeys_apply c ⟨m.id, m.action, m.params⟩ (.delivery sender)
    · exact .idle
  | ack a =>
    simp only [step, ack]
    split <;> exact .idle
  | apply caller id action params => exact e.obeys_apply c ⟨id, action, params⟩ (.direct caller)
  | posted errand ended =>
    cases errand with
    | proposal id =>
      obtain eq | ⟨r, -, -, ⟨-, eq⟩ | ⟨f, -, eq⟩⟩ := e.requestPosted_cases id ended
      · rw [step, posted, eq]
        exact .idle
      · rw [step, posted, eq]
        exact .idle
      · rw [step, posted, eq]
        exact .idle
    | propagation id => exact e.obeys_propagationPosted c id ended
  | executed ticket ended => exact (going ticket ended rfl).elim
  | readAck id =>
    simp only [step, readAck]
    split
    · exact .idle
    · split
      · rw [books_closePropagation]
        exact .idle
      · exact .idle
  | readVote id => exact obeys_moving e c rfl readVote_of_still
  | evaluated seat j =>
    cases seat with
    | proposer id => exact obeys_moving e c rfl evaluated_of_still
    | peer sender id caller => exact .idle

theorem books_executed {a : Application κ} {ticket : Nat} (found : e.applications.find? (·.ticket = ticket) = some a)
    (ended : Except ExecutionFault Unit) : (e.executed c ticket ended).1.books = e.books.release a ended := by
  simp only [executed, found]
  cases ended <;> exact books_settle ..

end Parts

end FleetCoordination.Engine
