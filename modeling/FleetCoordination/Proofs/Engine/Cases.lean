import FleetCoordination.Engine
/-!
# The cases of a step

What becomes of a submission, of a propagation, of what each has given the bus, of an action that
is to be applied, and of an application that ends. What a step keeps or tells follows case by case.
-/
namespace FleetCoordination

/-- Whether an action that is to be applied has come to an end at once, and if so how. -/
def Ledger.Opening.ok? : Ledger.Opening → Option Bool
  | .repeated earlier => some earlier.isOk
  | .reassigned _ => some true
  | .refused _ => some false
  | .handed => none

namespace Engine
variable {κ : Type}

/-- The propagation of an action that is sent now. -/
def sending (e : Engine κ) (c : Surroundings) (caller : κ) (id : ProposalId) (action : String) (params : Json)
    (timeout : Nat) : Propagation κ :=
  { caller, id, action, params, targets := Text.sorted (c.alive.filter fun a => a ≠ e.self),
    deadline := c.now + timeout }

/-- The message by which an action is sent now. -/
def order (e : Engine κ) (c : Surroundings) (id : ProposalId) (action : String) (params : Json) : Envelope :=
  Envelope.broadcast e.self (time c) (.propagate { id, action, params, term := c.leadership.term })

/-- The message by which votes on a proposal are asked for now. -/
def call (e : Engine κ) (c : Surroundings) (p : Proposal) : Envelope :=
  Envelope.broadcast e.self (time c) (.proposalRequest (Round.request p))

@[simp] theorem own_opening (e : Engine κ) (c : Surroundings) (caller : κ) (p : Proposal) :
    (e.opening c caller p).own = none := rfl

section Cases
variable (e : Engine κ) (c : Surroundings)

/-- An application is settled at once or handed to the executor. -/
theorem apply_cases (id : ProposalId) (action : String) (params : Json) (purpose : Purpose κ) :
    (∃ (ledger : Ledger) (metrics : ConsensusMetrics) (outputs : List (Output κ)) (ended : Except Fault Bool),
      (e.ledger.start id action params).2.ok? = some ended.isOk ∧ (∀ o ∈ outputs, ∃ event, o = .announce event) ∧
      e.apply c id action params purpose = (({ e with ledger, metrics }.settle c id purpose ended).1,
        outputs ++ ({ e with ledger, metrics }.settle c id purpose ended).2)) ∨
    (e.ledger.start id action params).2.ok? = none ∧ ∃ ledger, e.apply c id action params purpose =
      ({ e with
          ledger
          applications := e.applications ++ [{ ticket := e.tickets, id, action, purpose }]
          tickets := e.tickets + 1 },
        [.execute e.tickets action params]) := by
  unfold apply
  generalize e.ledger.start id action params = started
  obtain ⟨ledger, opening⟩ := started
  cases opening with
  | repeated earlier =>
    refine .inl ⟨ledger, (countDuplicate { e with ledger }).metrics, [],
      (earlier.mapError .execution).map fun _ => false, ?_, by simp, rfl⟩
    cases earlier <;> rfl
  | reassigned changes =>
    let counted : Engine κ := countCommit { e with ledger }
    refine .inl ⟨ledger, counted.metrics, changes.map (fun change => .announce (.roleReassigned change id (time c))) ++
      [(counted.settle c id purpose (.ok true)).1.committed c id action], .ok true, rfl, ?_,
      congrArg (Prod.mk _) (List.append_cons ..)⟩
    simp only [List.mem_append, List.mem_map, List.mem_singleton]
    rintro o (⟨change, -, rfl⟩ | rfl)
    · exact ⟨_, rfl⟩
    · exact ⟨_, rfl⟩
  | refused cause => exact .inl ⟨ledger, e.metrics, [], .error (.execution cause), rfl, by simp, rfl⟩
  | handed => exact .inr ⟨rfl, ledger, rfl⟩

theorem submit_cases (caller : κ) (p : Proposal) :
    (∃ m f, e.submit c caller p = { e with metrics := m }.refuse caller f) ∨
      e.taken p.id = false ∧ ∃ m, e.submit c caller p =
        ({ e with metrics := m, rounds := e.rounds ++ [e.opening c caller p] },
          [.post (.proposal p.id) (e.call c p)]) := by
  unfold submit
  dsimp only
  split
  · exact .inl ⟨_, _, rfl⟩
  split
  · exact .inl ⟨_, _, rfl⟩
  split
  · exact .inl ⟨e.metrics, _, rfl⟩
  · next free => exact .inr ⟨Bool.eq_false_iff.mpr free, _, rfl⟩

/-- A propagation is refused if its id is in use, or its message is handed to the bus. -/
theorem propagate_cases (caller : κ) (id : ProposalId) (action : String) (params : Json) (timeout : Nat) :
    (e.propagation? id).isSome = true ∧
        e.propagate c caller id action params timeout = e.declinePropagation caller (.idCollision id) ∨
      e.propagation? id = none ∧ e.propagate c caller id action params timeout =
        (e.openPropagation (e.sending c caller id action params timeout),
          [.post (.propagation id) (e.order c id action params)]) := by
  unfold propagate
  dsimp only
  split
  · next taken => exact .inl ⟨taken, rfl⟩
  · next free => exact .inr ⟨by simpa using free, rfl⟩

/-- What the bus has made of a request matters to the round that waits for it. -/
theorem requestPosted_cases (id : ProposalId) (ended : Except TransportFault Unit) :
    e.requestPosted id ended = (e, []) ∨
      ∃ r, e.round? id = some r ∧ r.progress = .posting ∧
        (ended = .ok () ∧
            e.requestPosted id ended = (e.setRound r.sent, [.evaluate (.proposer id) r.proposal.action]) ∨
          ∃ f, ended = .error f ∧ e.requestPosted id ended = (e.dropRound id).refuse r.caller (.transport f)) := by
  unfold requestPosted
  split
  · exact .inl rfl
  · next r found =>
    split
    · next waits =>
      refine .inr ⟨r, found, waits, ?_⟩
      cases ended with
      | ok => exact .inl ⟨rfl, rfl⟩
      | error f => exact .inr ⟨f, rfl, rfl⟩
    · exact .inl rfl

/-- What the bus has made of a propagation's message matters to the propagation that waits for it. -/
theorem propagationPosted_cases (id : ProposalId) (ended : Except TransportFault Unit) :
    e.propagationPosted c id ended = (e, []) ∨
      ∃ p, e.propagation? id = some p ∧ p.progress = .posting ∧
        (ended = .ok () ∧ e.propagationPosted c id ended =
            (e.setPropagation p.sent).apply c id p.action p.params .propagation ∨
          ∃ f, ended = .error f ∧
            e.propagationPosted c id ended = (e.dropPropagation id).declinePropagation p.caller (.transport f)) := by
  unfold propagationPosted
  split
  · exact .inl rfl
  · next p found =>
    split
    · next waits =>
      refine .inr ⟨p, found, waits, ?_⟩
      cases ended with
      | ok => exact .inl ⟨rfl, rfl⟩
      | error f => exact .inr ⟨f, rfl, rfl⟩
    · exact .inl rfl

/-- An application that ends is taken off the executor, and its purpose is carried on. -/
theorem executed_cases (ticket : Nat) (ended : Except ExecutionFault Unit) :
    e.applications.find? (fun a => a.ticket = ticket) = none ∧ e.executed c ticket ended = (e, []) ∨
      ∃ (a : Application κ) (metrics : ConsensusMetrics) (outputs : List (Output κ)) (result : Except Fault Bool),
        e.applications.find? (fun a => a.ticket = ticket) = some a ∧ result.isOk = ended.isOk ∧
        (∀ o ∈ outputs, ∃ event, o = .announce event) ∧
        e.executed c ticket ended = (({ e.release a ended with metrics }.settle c a.id a.purpose result).1,
          outputs ++ ({ e.release a ended with metrics }.settle c a.id a.purpose result).2) := by
  unfold executed
  split
  · next none_ => exact .inl ⟨none_, rfl⟩
  · next a found =>
    right
    cases ended with
    | ok =>
      let counted := (e.release a (.ok ())).countCommit
      refine ⟨a, counted.metrics, [(counted.settle c a.id a.purpose (.ok true)).1.committed c a.id a.action], .ok true,
        found, rfl, ?_, rfl⟩
      exact List.forall_mem_singleton.mpr ⟨_, rfl⟩
    | error cause =>
      exact ⟨a, (e.release a (.error cause)).metrics, [], .error (.execution cause), found, rfl, by simp, rfl⟩

end Cases

end Engine

end FleetCoordination
