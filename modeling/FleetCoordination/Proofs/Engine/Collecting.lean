import FleetCoordination.Proofs.Engine.Resolution
import FleetCoordination.Proofs.Propagation
/-!
# Collecting acknowledgements

What a step does to the propagations, to the record of the peers, and to the applications of what is
propagated: it opens a propagation or refuses to, gives it up, sets about its own application, offers
it an acknowledgement, or moves it on. A propagation that is moved on is reported just if it is
settled then, and only a report is recorded.
-/
namespace FleetCoordination

def Purpose.propagates {κ : Type} : Purpose κ → Bool
  | .propagation => true
  | _ => false

namespace Propagation
variable {κ : Type} (p : Propagation κ)

/-- What a propagation has been asked for, which no step changes. -/
def plan : κ × ProposalId × String × Json × List AgentId × Nat :=
  (p.caller, p.id, p.action, p.params, p.targets, p.deadline)

theorem plan_offer (a : ActionAck) : (p.offer a).plan = p.plan ∧ (p.offer a).progress = p.progress := by
  unfold offer
  split <;> exact ⟨rfl, rfl⟩

theorem plan_next : (p.read?.getD p).plan = p.plan ∧ (p.read?.getD p).progress = p.progress := by
  unfold read?
  split
  · exact ⟨rfl, rfl⟩
  · rw [Option.getD_some]
    unfold note
    split <;> exact ⟨rfl, rfl⟩

theorem id_of_plan {p p' : Propagation κ} (plan : p'.plan = p.plan) : p'.id = p.id := congrArg (·.2.1) plan

end Propagation

namespace Engine
variable {κ : Type}

def Output.propagated? : Output κ → Option (κ × Except Fault PropagationReport)
  | .propagated caller result => some (caller, result)
  | _ => none

/-- What is told of propagations in a list of outputs, in order. -/
def deliveries (outputs : List (Output κ)) : List (κ × Except Fault PropagationReport) :=
  outputs.filterMap Output.propagated?

@[simp] theorem deliveries_nil : deliveries ([] : List (Output κ)) = [] := rfl

@[simp] theorem deliveries_cons (o : Output κ) (outputs : List (Output κ)) :
    deliveries (o :: outputs) = o.propagated?.toList ++ deliveries outputs := by
  cases h : o.propagated? <;> simp [deliveries, h]

@[simp] theorem deliveries_append (xs ys : List (Output κ)) :
    deliveries (xs ++ ys) = deliveries xs ++ deliveries ys := by
  simp [deliveries]

theorem mem_deliveries {caller : κ} {result : Except Fault PropagationReport} {outputs : List (Output κ)} :
    (caller, result) ∈ deliveries outputs ↔ .propagated caller result ∈ outputs := by
  simp only [deliveries, List.mem_filterMap]
  constructor
  · rintro ⟨o, ho, told⟩
    cases o <;> cases told
    exact ho
  · exact fun ho => ⟨_, ho, rfl⟩

@[simp] theorem deliveries_publish (c : Surroundings) (env : Envelope) :
    deliveries (publish c env : List (Output κ)) = [] := by
  unfold publish
  split <;> rfl

/-- The propagation that an input asks for. -/
def Input.propagator? : Input κ → Option (κ × ProposalId)
  | .propagate caller id .. => some (caller, id)
  | _ => none

theorem deliveries_announced {outputs : List (Output κ)} (announced : ∀ o ∈ outputs, ∃ event, o = .announce event) :
    deliveries outputs = [] := by
  refine List.filterMap_eq_nil_iff.mpr fun o ho => ?_
  obtain ⟨event, rfl⟩ := announced o ho
  rfl

/-! ## Collections -/

/-- What an engine keeps for the sake of its propagations. -/
structure Collection (κ : Type) where
  propagations : List (Propagation κ)
  tracker : ComplianceTracker
  /-- The applications of what is propagated that are with the executor. -/
  applying : List (Application κ)

def collection (e : Engine κ) : Collection κ where
  propagations := e.propagations
  tracker := e.tracker
  applying := e.applications.filter (·.purpose.propagates)

namespace Collection
variable (k : Collection κ)

def find? (id : ProposalId) : Option (Propagation κ) := k.propagations.find? fun p => p.id = id

def start (p : Propagation κ) : Collection κ := { k with propagations := k.propagations ++ [p] }

def set (p : Propagation κ) : Collection κ :=
  { k with propagations := k.propagations.map fun p' => if p'.id = p.id then p else p' }

def drop (id : ProposalId) : Collection κ := { k with propagations := k.propagations.filter fun p => p.id ≠ id }

/-- What is kept once a propagation has been moved on. -/
def close (now : Nat) (p : Propagation κ) : Collection κ :=
  if p.settled now then { k.drop p.id with tracker := p.track k.tracker } else k.set p

/-- What is kept once an application is over. -/
def release (ticket? : Option Nat) : Collection κ :=
  { k with applying := k.applying.filter fun a => some a.ticket ≠ ticket? }

/-- The tickets of the applications of an id. -/
def pending (id : ProposalId) : List Nat := (k.applying.filter fun a => a.id = id).map (·.ticket)

/-- The propagation that an input moves on, as far as it moves it. -/
def collected? : Input κ → Option (Propagation κ)
  | .readAck id => (k.find? id).bind fun p => if p.own.isSome then some (p.read?.getD p) else none
  | .executed ticket ended =>
    (k.applying.find? fun a => a.ticket = ticket).bind fun a =>
      (k.find? a.id).map fun p => { p with progress := .reading ended.isOk }
  | _ => none

end Collection

/-- What is told of a propagation that has been moved on. -/
def told? (now : Nat) (p : Propagation κ) : List (κ × Except Fault PropagationReport) :=
  if p.settled now then [(p.caller, .ok p.report)] else []

/-- The application that an input is the end of. -/
def Input.ticket? : Input κ → Option Nat
  | .executed ticket _ => some ticket
  | _ => none

/-- What a step can do to a collection, with what it tells of propagations. -/
inductive Gathering (e : Engine κ) (c : Surroundings) :
    Input κ → List (κ × Except Fault PropagationReport) → Collection κ → Prop
  | idle {i : Input κ} (still : e.collection.collected? i = none) (unasked : i.propagator? = none)
      (stray : ∀ a, i = .ack a → e.propagation? a.id = none)
      (settled : ∀ id ended p, i = .posted (.propagation id) ended → e.propagation? id = some p →
        p.progress ≠ .posting) : Gathering e c i [] (e.collection.release i.ticket?)
  | refused (caller : κ) (id : ProposalId) (action : String) (params : Json) (timeout : Nat)
      (taken : (e.propagation? id).isSome = true)
      (same : e.propagate c caller id action params timeout = (e, [.propagated caller (.error (.idCollision id))])) :
      Gathering e c (.propagate caller id action params timeout) [(caller, .error (.idCollision id))] e.collection
  | offered (a : ActionAck) (p : Propagation κ) (found : e.propagation? a.id = some p) :
      Gathering e c (.ack a) [] (e.collection.set (p.offer a))
  | opened (caller : κ) (id : ProposalId) (action : String) (params : Json) (timeout : Nat)
      (free : e.propagation? id = none)
      (same : e.propagate c caller id action params timeout =
        (e.openPropagation (e.sending c caller id action params timeout),
          [.post (.propagation id) (e.order c id action params)])) :
      Gathering e c (.propagate caller id action params timeout) []
        (e.collection.start (e.sending c caller id action params timeout))
  | abandoned (p : Propagation κ) (f : TransportFault) (found : e.propagation? p.id = some p)
      (waits : p.progress = .posting)
      (same : e.propagationPosted c p.id (.error f) =
        (e.dropPropagation p.id, [.propagated p.caller (.error (.transport f))])) :
      Gathering e c (.posted (.propagation p.id) (.error f)) [(p.caller, .error (.transport f))]
        (e.collection.drop p.id)
  | handed (p : Propagation κ) (found : e.propagation? p.id = some p) (waits : p.progress = .posting)
      (handed : (e.ledger.start p.id p.action p.params).2.ok? = none)
      (asks : .execute e.tickets p.action p.params ∈ (e.propagationPosted c p.id (.ok ())).2) :
      Gathering e c (.posted (.propagation p.id) (.ok ())) []
        { e.collection.set p.sent with
          applying := e.collection.applying ++
            [{ ticket := e.tickets, id := p.id, action := p.action, purpose := .propagation }] }
  | begun (p : Propagation κ) (ok : Bool) (found : e.propagation? p.id = some p) (waits : p.progress = .posting)
      (known : (e.ledger.start p.id p.action p.params).2.ok? = some ok) :
      Gathering e c (.posted (.propagation p.id) (.ok ())) (told? c.now { p with progress := .reading ok })
        ((e.collection.set p.sent).close c.now { p with progress := .reading ok })
  | moved {i : Input κ} (p : Propagation κ) (moved : e.collection.collected? i = some p) :
      Gathering e c i (told? c.now p) ((e.collection.release i.ticket?).close c.now p)

/-! ## Looking up -/

namespace Collection
variable {k : Collection κ} {id : ProposalId} {p q : Propagation κ} {ticket : Nat}

theorem id_of_find? (h : k.find? id = some p) : p.id = id := by
  simpa using List.find?_some h

theorem find?_set_self (held : k.find? p.id = some q) : (k.set p).find? p.id = some p := by
  rw [find?, set, find_replace Propagation.id, show k.propagations.find? _ = _ from held, Option.map_some,
    if_pos (id_of_find? held)]

theorem find?_set_ne (other : id ≠ p.id) : (k.set p).find? id = k.find? id := by
  rw [find?, set, find_replace Propagation.id]
  cases held : k.find? id with
  | none => rw [show k.propagations.find? _ = _ from held, Option.map_none]
  | some x => rw [show k.propagations.find? _ = _ from held, Option.map_some, if_neg (id_of_find? held ▸ other)]

theorem find?_drop_self (k : Collection κ) (id : ProposalId) : (k.drop id).find? id = none :=
  List.find?_eq_none.mpr fun x hx => by simpa using (List.mem_filter.mp hx).2

theorem find?_drop_ne {other : ProposalId} (apart : other ≠ id) : (k.drop id).find? other = k.find? other :=
  find_filter_ne Propagation.id apart.symm k.propagations

theorem find?_close_self (held : k.find? p.id = some q) (now : Nat) :
    (k.close now p).find? p.id = if p.settled now then none else some p := by
  unfold close
  split
  · exact find?_drop_self k p.id
  · exact find?_set_self held

theorem find?_close_ne (other : id ≠ p.id) (now : Nat) : (k.close now p).find? id = k.find? id := by
  unfold close
  split
  · exact find?_drop_ne other
  · exact find?_set_ne other

theorem find?_start_self (free : k.find? p.id = none) : (k.start p).find? p.id = some p := by
  simp [find?, start, show k.propagations.find? _ = none from free]

theorem find?_start_ne (other : id ≠ p.id) : (k.start p).find? id = k.find? id := by
  simp [find?, start, other.symm]

theorem applying_close (now : Nat) : (k.close now p).applying = k.applying := by
  unfold close
  split <;> rfl

theorem mem_pending : ticket ∈ k.pending id ↔ ∃ a ∈ k.applying, a.id = id ∧ a.ticket = ticket := by
  simp [pending, and_assoc]

theorem pending_release (k : Collection κ) (ticket? : Option Nat) (id : ProposalId) :
    (k.release ticket?).pending id = (k.pending id).filter fun ticket => some ticket ≠ ticket? := by
  simp [pending, release, List.filter_map, List.filter_filter, Function.comp_def, Bool.and_comm]

theorem find_pending (once : (k.applying.map (·.ticket)).Nodup) (mem : ticket ∈ k.pending id) :
    ∃ a, k.applying.find? (·.ticket = ticket) = some a ∧ a.id = id := by
  obtain ⟨a, held, same, rfl⟩ := mem_pending.mp mem
  exact ⟨a, find_ticket once held, same⟩

end Collection

/-! ## Applications -/

section Applications
variable (e : Engine κ) (c : Surroundings) {id : ProposalId} {action : String} {params : Json} {purpose : Purpose κ}

theorem settle_of_held {p : Propagation κ} (held : e.propagation? id = some p) (result : Except Fault Bool) :
    e.settle c id .propagation result = e.closePropagation c { p with progress := .reading result.isOk } := by
  simp only [settle, held]

theorem settle_of_free (free : e.propagation? id = none) (result : Except Fault Bool) :
    e.settle c id .propagation result = (e, []) := by
  simp only [settle, free]

/-- Whether a step has left the propagations alone. -/
def Quiet (e : Engine κ) (s : Step κ) : Prop := deliveries s.2 = [] ∧ s.1.collection = e.collection

theorem quiet_settle (id : ProposalId) (other : purpose.propagates = false) (result : Except Fault Bool) :
    e.Quiet (e.settle c id purpose result) := by
  cases purpose with
  | propagation => cases other
  | delivery sender => exact ⟨deliveries_publish c _, rfl⟩
  | commit | approval | direct => exact ⟨rfl, rfl⟩

theorem quiet_apply (id : ProposalId) (action : String) (params : Json) (purpose : Purpose κ)
    (other : purpose.propagates = false) : e.Quiet (e.apply c id action params purpose) := by
  obtain ⟨ledger, metrics, outputs, ended, -, announced, eq⟩ | ⟨-, ledger, eq⟩ :=
    e.apply_cases c id action params purpose
  · obtain ⟨rest, kept⟩ := quiet_settle { e with ledger, metrics } c id other ended
    rw [eq]
    exact ⟨by rw [deliveries_append, deliveries_announced announced, rest, List.nil_append], kept⟩
  · rw [eq]
    exact ⟨rfl, by simp [collection, other]⟩

theorem quiet_advanceRound (r : Round κ) : e.Quiet (e.advanceRound c r) := by
  unfold advanceRound closeRound
  split
  · next o _ =>
    split
    · obtain ⟨silent, same⟩ := (e.endRound r o).quiet_apply c r.id r.proposal.action r.proposal.params
        (.commit (r.result o) r.caller) rfl
      exact ⟨by simp [resolved, Output.propagated?, broadcast, silent], same⟩
    · exact ⟨rfl, rfl⟩
  · exact ⟨rfl, rfl⟩

theorem collection_closePropagation (p : Propagation κ) :
    (e.closePropagation c p).1.collection = e.collection.close c.now p := by
  unfold closePropagation Collection.close
  split <;> rfl

theorem deliveries_closePropagation (p : Propagation κ) : deliveries (e.closePropagation c p).2 = told? c.now p := by
  unfold closePropagation told?
  split <;> rfl

end Applications

/-! ## Inputs that move a propagation on -/

@[simp] theorem Collection.release_none (k : Collection κ) : k.release none = k := by simp [Collection.release]

theorem Collection.release_of_absent {k : Collection κ} {ticket : Nat} (absent : ∀ a ∈ k.applying, a.ticket ≠ ticket) :
    k.release (some ticket) = k := by
  have all : (k.applying.filter fun a => some a.ticket ≠ some ticket) = k.applying :=
    List.filter_eq_self.mpr fun a ha => by simpa using absent a ha
  rw [Collection.release, all]

section Steps
variable {e : Engine κ} {c : Surroundings} {i : Input κ}

theorem collection_release (e : Engine κ) (a : Application κ) (ended : Except ExecutionFault Unit) :
    (e.release a ended).collection = e.collection.release (some a.ticket) := by
  simp [collection, release, Collection.release, List.filter_filter, Bool.and_comm]

theorem find_applying (once : (e.applications.map (·.ticket)).Nodup) {ticket : Nat} {a : Application κ}
    (found : e.applications.find? (·.ticket = ticket) = some a) :
    e.collection.applying.find? (·.ticket = ticket) = if a.purpose.propagates then some a else none := by
  obtain rfl : a.ticket = ticket := by simpa using List.find?_some found
  have held : a ∈ e.applications := List.mem_of_find?_eq_some found
  split
  · next propagates =>
    exact find_ticket (once.sublist (List.filter_sublist.map _)) (List.mem_filter.mpr ⟨held, propagates⟩)
  · next other =>
    refine List.find?_eq_none.mpr fun a' ha' same => other ?_
    obtain ⟨held', propagates⟩ := List.mem_filter.mp ha'
    obtain rfl : a' = a := List.inj_on_of_nodup_map once held' held (by simpa using same)
    exact propagates

theorem of_propagates {purpose : Purpose κ} (h : purpose.propagates = true) : purpose = .propagation := by
  cases purpose with
  | propagation => rfl
  | commit | approval | delivery | direct => cases h

theorem gathering_executed (once : (e.applications.map (·.ticket)).Nodup) (c : Surroundings) (ticket : Nat)
    (ended : Except ExecutionFault Unit) :
    Gathering e c (.executed ticket ended) (deliveries (e.executed c ticket ended).2)
      (e.executed c ticket ended).1.collection := by
  have idle (still : e.collection.collected? (.executed ticket ended) = none) :
      Gathering e c (.executed ticket ended) [] (e.collection.release (some ticket)) :=
    .idle still rfl (by simp) (by simp)
  obtain ⟨none_, eq⟩ | ⟨a, metrics, outputs, result, found, ok, announced, eq⟩ := e.executed_cases c ticket ended
  · have absent : ∀ a ∈ e.collection.applying, a.ticket ≠ ticket := fun a ha => by
      simpa using List.find?_eq_none.mp none_ a (List.mem_filter.mp ha).1
    have still : e.collection.applying.find? (·.ticket = ticket) = none := by simpa using absent
    rw [eq]
    exact Collection.release_of_absent absent ▸ idle (by rw [Collection.collected?, still, Option.bind_none])
  · let left : Engine κ := { e.release a ended with metrics }
    have released : left.collection = e.collection.release (some ticket) := by
      obtain rfl : a.ticket = ticket := by simpa using List.find?_some found
      exact e.collection_release a ended
    have moving := find_applying once found
    rw [eq, deliveries_append, deliveries_announced announced, List.nil_append]
    cases why : a.purpose.propagates with
    | false =>
      obtain ⟨silent, kept⟩ := left.quiet_settle c a.id why result
      rw [silent, kept, released]
      exact idle (by rw [Collection.collected?, moving, why, if_neg Bool.false_ne_true, Option.bind_none])
    | true =>
      have moved : e.collection.collected? (.executed ticket ended) =
          (e.collection.find? a.id).map fun p => { p with progress := .reading ended.isOk } := by
        rw [Collection.collected?, moving, if_pos why, Option.bind_some]
      rw [of_propagates why]
      cases held : e.propagation? a.id with
      | none =>
        rw [left.settle_of_free c held, released]
        exact idle (by rw [moved, show e.collection.find? a.id = none from held, Option.map_none])
      | some p =>
        rw [left.settle_of_held c held, collection_closePropagation, deliveries_closePropagation, released, ok]
        exact .moved _ (by rw [moved, show e.collection.find? a.id = some p from held, Option.map_some])

theorem gathering_propagate (c : Surroundings) (caller : κ) (id : ProposalId) (action : String) (params : Json)
    (timeout : Nat) :
    Gathering e c (.propagate caller id action params timeout)
      (deliveries (e.propagate c caller id action params timeout).2)
      (e.propagate c caller id action params timeout).1.collection := by
  obtain ⟨taken, same⟩ | ⟨free, same⟩ := e.propagate_cases c caller id action params timeout
  · rw [same]
    exact .refused caller id action params timeout taken same
  · rw [same]
    exact .opened caller id action params timeout free same

/-- A step that leaves the propagations alone, for an input that they do not wait for. -/
theorem Gathering.of_quiet {s : Step κ} (quiet : e.Quiet s) (still : e.collection.collected? i = none)
    (unasked : i.propagator? = none) (stray : ∀ a, i = .ack a → e.propagation? a.id = none)
    (settled : ∀ id ended p, i = .posted (.propagation id) ended → e.propagation? id = some p →
      p.progress ≠ .posting)
    (going : i.ticket? = none) : Gathering e c i (deliveries s.2) s.1.collection := by
  have idle : Gathering e c i [] (e.collection.release i.ticket?) := .idle still unasked stray settled
  rw [going, Collection.release_none] at idle
  rw [quiet.1, quiet.2]
  exact idle

theorem gathering_propagationPosted (c : Surroundings) (id : ProposalId) (ended : Except TransportFault Unit) :
    Gathering e c (.posted (.propagation id) ended) (deliveries (e.propagationPosted c id ended).2)
      (e.propagationPosted c id ended).1.collection := by
  cases held : e.propagation? id with
  | none =>
    have same : e.propagationPosted c id ended = (e, []) := by simp only [propagationPosted, held]
    rw [same]
    exact .of_quiet (s := (e, [])) ⟨rfl, rfl⟩ rfl rfl (by simp) (by rintro _ _ p ⟨⟩ found; simp [held] at found) rfl
  | some p =>
    obtain rfl : p.id = id := by simpa using List.find?_some held
    by_cases waits : p.progress = .posting
    · cases ended with
      | error f =>
        have same : e.propagationPosted c p.id (.error f) =
            (e.dropPropagation p.id, [.propagated p.caller (.error (.transport f))]) := by
          simp only [propagationPosted, held, if_pos waits, declinePropagation]
        rw [same]
        exact .abandoned p f held waits same
      | ok =>
        have same : e.propagationPosted c p.id (.ok ()) =
            (e.setPropagation p.sent).apply c p.id p.action p.params .propagation := by
          simp only [propagationPosted, held, if_pos waits]
        obtain ⟨ledger, metrics, outputs, ended, known, announced, eq⟩ | ⟨handed, ledger, eq⟩ :=
          (e.setPropagation p.sent).apply_cases c p.id p.action p.params .propagation
        · let sent : Engine κ := { e.setPropagation p.sent with ledger, metrics }
          have found : sent.propagation? p.id = some p.sent :=
            Collection.find?_set_self (k := e.collection) (p := p.sent) held
          rw [same, eq, deliveries_append, deliveries_announced announced, List.nil_append,
            sent.settle_of_held c found, deliveries_closePropagation, collection_closePropagation]
          exact .begun p ended.isOk held waits known
        · have asks : .execute e.tickets p.action p.params ∈ (e.propagationPosted c p.id (.ok ())).2 := by
            rw [same, eq]
            exact List.mem_singleton_self _
          have going : Gathering e c (.posted (.propagation p.id) (.ok ())) [] _ :=
            .handed p held waits handed asks
          rw [same, eq]
          simpa [collection, setPropagation, Collection.set, Purpose.propagates, Output.propagated?] using going
    · have same : e.propagationPosted c p.id ended = (e, []) := by simp only [propagationPosted, held, if_neg waits]
      rw [same]
      refine .of_quiet (s := (e, [])) ⟨rfl, rfl⟩ rfl rfl (by simp) ?_ rfl
      rintro _ _ q ⟨⟩ found
      rwa [← Option.some.inj (held.symm.trans found)]

theorem quiet_advancing (still : e.advanced? i = none → e.Quiet (e.step c i)) : e.Quiet (e.step c i) := by
  cases moved : e.advanced? i with
  | some r =>
    obtain ⟨-, m, eq⟩ := step_of_advanced moved c
    rw [eq]
    exact quiet_advanceRound { e with metrics := m } c r
  | none => exact still moved

theorem gathering_readAck (c : Surroundings) (id : ProposalId) :
    Gathering e c (.readAck id) (deliveries (e.readAck c id).2) (e.readAck c id).1.collection := by
  have reads : e.collection.collected? (.readAck id) =
      (e.propagation? id).bind fun p => if p.own.isSome then some (p.read?.getD p) else none := rfl
  unfold readAck
  split
  · next none_ =>
    rw [none_, Option.bind_none] at reads
    exact .of_quiet (s := (e, [])) ⟨rfl, rfl⟩ reads rfl (by simp) (by simp) rfl
  · next p found =>
    rw [found, Option.bind_some] at reads
    split
    · next ended =>
      rw [deliveries_closePropagation, collection_closePropagation]
      exact (Collection.release_none e.collection) ▸ .moved _ (reads.trans (if_pos ended))
    · next pending =>
      exact .of_quiet (s := (e, [])) ⟨rfl, rfl⟩ (reads.trans (if_neg pending)) rfl (by simp) (by simp) rfl

theorem gathering_step (once : (e.applications.map (·.ticket)).Nodup) (c : Surroundings) (i : Input κ) :
    Gathering e c i (deliveries (e.step c i).2) (e.step c i).1.collection := by
  cases i with
  | executed ticket ended => exact gathering_executed once c ticket ended
  | propagate caller id action params timeout => exact gathering_propagate c caller id action params timeout
  | ack a =>
    simp only [step, ack]
    split
    · next p found => exact .offered a p found
    · next none_ => exact .of_quiet (s := (e, [])) ⟨rfl, rfl⟩ rfl rfl (by rintro _ ⟨⟩; exact none_) (by simp) rfl
  | readAck id => exact gathering_readAck c id
  | submit caller p =>
    obtain ⟨m, f, eq⟩ | ⟨-, m, eq⟩ := e.submit_cases c caller p
    · exact .of_quiet (by rw [step, eq]; exact ⟨rfl, rfl⟩) rfl rfl (by simp) (by simp) rfl
    · exact .of_quiet (by rw [step, eq]; exact ⟨rfl, rfl⟩) rfl rfl (by simp) (by simp) rfl
  | posted errand ended =>
    cases errand with
    | propagation id => exact gathering_propagationPosted c id ended
    | proposal id =>
      refine .of_quiet ?_ rfl rfl (by simp) (by simp) rfl
      obtain eq | ⟨r, -, -, ⟨-, eq⟩ | ⟨f, -, eq⟩⟩ := e.requestPosted_cases id ended
      all_goals
        simp only [step, posted, eq]
        exact ⟨rfl, rfl⟩
  | request caller sender m =>
    refine .of_quiet ?_ rfl rfl (by simp) (by simp) rfl
    simp only [step, request]
    split <;> exact ⟨rfl, rfl⟩
  | vote v =>
    refine .of_quiet ?_ rfl rfl (by simp) (by simp) rfl
    simp only [step, vote]
    split <;> exact ⟨rfl, rfl⟩
  | approval sender m =>
    refine .of_quiet ?_ rfl rfl (by simp) (by simp) rfl
    simp only [step, approval]
    split
    · exact e.quiet_apply c _ _ _ _ rfl
    · exact ⟨rfl, rfl⟩
  | delivery sender m =>
    refine .of_quiet ?_ rfl rfl (by simp) (by simp) rfl
    simp only [step, delivery]
    split
    · exact ⟨rfl, rfl⟩
    split
    · exact e.quiet_apply c _ _ _ _ rfl
    · exact ⟨rfl, rfl⟩
  | apply caller id action params => exact .of_quiet (e.quiet_apply c _ _ _ _ rfl) rfl rfl (by simp) (by simp) rfl
  | readVote id =>
    refine .of_quiet (quiet_advancing fun still => ?_) rfl rfl (by simp) (by simp) rfl
    rw [step, readVote_of_still still]
    exact ⟨rfl, rfl⟩
  | evaluated seat j =>
    refine .of_quiet (quiet_advancing fun still => ?_) rfl rfl (by simp) (by simp) rfl
    cases seat with
    | proposer id =>
      rw [step, evaluated_of_still still]
      exact ⟨rfl, rfl⟩
    | peer sender id caller => exact ⟨by simp [step, evaluated, reply, Output.propagated?], rfl⟩

end Steps

/-! ## What is told -/

section Told
variable {caller : κ} {told : List (κ × Except Fault PropagationReport)} {k : Collection κ}

theorem mem_told? {now : Nat} {p : Propagation κ} {result : Except Fault PropagationReport} :
    (caller, result) ∈ told? now p ↔ p.settled now = true ∧ caller = p.caller ∧ result = .ok p.report := by
  unfold told?
  split
  · next settled => simp [settled]
  · next going => simp [going]

/-- A propagation that is refused is so at once, or is given up when its message cannot be sent. -/
theorem Gathering.declined {e : Engine κ} {c : Surroundings} {i : Input κ} {f : Fault} (h : Gathering e c i told k)
    (mem : (caller, .error f) ∈ told) :
    (∃ id action params timeout, i = .propagate caller id action params timeout ∧
        (e.propagation? id).isSome = true ∧ f = .idCollision id ∧ e.step c i = (e, [.propagated caller (.error f)])) ∨
      ∃ p fault, i = .posted (.propagation p.id) (.error fault) ∧ f = .transport fault ∧ p.caller = caller ∧
        e.propagation? p.id = some p ∧ p.progress = .posting ∧
        e.step c i = (e.dropPropagation p.id, [.propagated caller (.error f)]) := by
  cases h with
  | idle | offered | opened | handed => simp at mem
  | refused caller' id action params timeout taken same =>
    cases List.mem_singleton.mp mem
    exact .inl ⟨id, action, params, timeout, rfl, taken, rfl, same⟩
  | abandoned p fault found waits same =>
    cases List.mem_singleton.mp mem
    exact .inr ⟨p, fault, rfl, rfl, rfl, found, waits, same⟩
  | begun | moved =>
    obtain ⟨-, -, what⟩ := mem_told?.mp mem
    cases what

end Told

end Engine

end FleetCoordination
