import FleetCoordination.Proofs.Engine.Rounds
import FleetCoordination.Proofs.Poll
/-!
# Standing rounds

What becomes of one round in a step: the step ends it, gives it up, or leaves it as the input
changes it. A submission is answered by the step that ends its round or, if the outcome is a
commit, by the end of the application that the step hands to the executor.
-/
namespace FleetCoordination

namespace Round
variable {κ : Type}

/-- A round as an input leaves it that does not end it. -/
def after (self : AgentId) (r : Round κ) : Engine.Input κ → Round κ
  | .vote v => if v.id = r.id then r.offer v else r
  | .posted (.proposal id) (.ok _) => if id = r.id ∧ r.progress = .posting then r.sent else r
  | .evaluated (.proposer id) j => if id = r.id ∧ r.progress = .working then r.castOwn self j.granted else r
  | .readVote id => if id = r.id ∧ r.own.isSome = true then (r.read?.map Prod.fst).getD r else r
  | _ => r

theorem charter_after (self : AgentId) (r : Round κ) (i : Engine.Input κ) : (r.after self i).charter = r.charter := by
  unfold after
  split
  · split
    · exact Engine.charter_offer ..
    · rfl
  · split <;> rfl
  · split <;> rfl
  · split
    · cases next : r.read? with
      | some x => exact Engine.charter_read next
      | none => rfl
    · rfl
  · rfl

theorem id_after (self : AgentId) (r : Round κ) (i : Engine.Input κ) : (r.after self i).id = r.id :=
  congrArg (fun x => x.2.1.id) (r.charter_after self i)

theorem deadline_after (self : AgentId) (r : Round κ) (i : Engine.Input κ) :
    (r.after self i).deadline = r.deadline := by
  unfold after
  split
  · unfold offer
    split
    · split <;> rfl
    · rfl
  · split <;> rfl
  · split <;> rfl
  · split
    · unfold read?
      split <;> rfl
    · rfl
  · rfl

end Round

namespace Engine
variable {κ : Type}

/-- The proposal whose round an input is for. -/
def Input.target? : Input κ → Option ProposalId
  | .vote v => some v.id
  | .posted (.proposal id) _ | .evaluated (.proposer id) _ | .readVote id => some id
  | _ => none

theorem after_of_other {r : Round κ} {i : Input κ} (h : i.target? ≠ some r.id) (self : AgentId) :
    r.after self i = r := by
  unfold Round.after
  split
  · next v => exact if_neg fun same => h (congrArg some same)
  · next id _ => exact if_neg fun same => h (congrArg some same.1)
  · next id j => exact if_neg fun same => h (congrArg some same.1)
  · next id => exact if_neg fun same => h (congrArg some same.1)
  · rfl

/-! ## Looking a round up -/

section Keys
variable {α β : Type} [DecidableEq β] (key : α → β)

/-- A look-up goes past what is taken away under other keys. -/
theorem find_filter_ne {a b : β} (other : a ≠ b) (xs : List α) :
    (xs.filter fun x => key x ≠ a).find? (fun x => key x = b) = xs.find? fun x => key x = b := by
  rw [List.find?_filter]
  congr 1
  funext x
  by_cases found : key x = b
  · simp [found, other.symm]
  · simp [found]

/-- A look-up finds what has been put in the place of something of its key. -/
theorem find_replace (xs : List α) (y : α) (b : β) :
    (xs.map fun x => if key x = key y then y else x).find? (fun x => key x = b) =
      (xs.find? fun x => key x = b).map fun x => if key x = key y then y else x := by
  have keys (x : α) : key (if key x = key y then y else x) = key x := by
    split
    · next same => exact same.symm
    · rfl
  simp only [List.find?_map, Function.comp_def, keys]

end Keys

section LookUp
variable {e : Engine κ} {id : ProposalId} {r r' : Round κ}

theorem id_of_round? (h : e.round? id = some r) : r.id = id := by
  simpa using List.find?_some h

theorem round?_setRound (e : Engine κ) (r' : Round κ) (id : ProposalId) :
    (e.setRound r').round? id = (e.round? id).map fun x => if x.id = r'.id then r' else x :=
  find_replace Round.id e.rounds r' id

theorem round?_setRound_self (h : e.round? id = some r) (same : r'.id = id) : (e.setRound r').round? id = some r' := by
  simp [round?_setRound, h, id_of_round? h, same]

theorem round?_setRound_ne (h : e.round? id = some r) (other : r'.id ≠ id) : (e.setRound r').round? id = some r := by
  simp [round?_setRound, h, id_of_round? h, other.symm]

theorem round?_dropRound_self (e : Engine κ) (id : ProposalId) : (e.dropRound id).round? id = none :=
  List.find?_eq_none.mpr fun x hx => by simpa using (List.mem_filter.mp hx).2

theorem round?_dropRound_ne {other : ProposalId} (apart : other ≠ id) (e : Engine κ) :
    (e.dropRound other).round? id = e.round? id :=
  find_filter_ne Round.id apart e.rounds

end LookUp

/-! ## What a step leaves alone -/

section Posture
variable (e : Engine κ) (c : Surroundings)

theorem posture_executed (ticket : Nat) (ended : Except ExecutionFault Unit) :
    (e.executed c ticket ended).1.posture = e.posture := by
  obtain ⟨-, eq⟩ | ⟨a, metrics, outputs, result, -, -, -, eq⟩ := e.executed_cases c ticket ended
  · rw [eq]
  · rw [eq]
    exact posture_settle ..

theorem posture_propagate (caller : κ) (id : ProposalId) (action : String) (params : Json) (timeout : Nat) :
    (e.propagate c caller id action params timeout).1.posture = e.posture := by
  obtain ⟨-, eq⟩ | ⟨-, eq⟩ := e.propagate_cases c caller id action params timeout
  · rw [eq]
    rfl
  · rw [eq]
    rfl

theorem posture_propagationPosted (id : ProposalId) (ended : Except TransportFault Unit) :
    (e.propagationPosted c id ended).1.posture = e.posture := by
  obtain eq | ⟨p, -, -, ⟨-, eq⟩ | ⟨f, -, eq⟩⟩ := e.propagationPosted_cases c id ended
  · rw [eq]
  · rw [eq]
    exact posture_apply ..
  · rw [eq]
    rfl

theorem posture_readAck (id : ProposalId) : (e.readAck c id).1.posture = e.posture := by
  unfold readAck
  split
  · rfl
  split
  · exact posture_closePropagation ..
  · rfl

variable {e}

/-- Only submissions, posted requests and votes touch the rounds that they do not move on. -/
theorem posture_step_of_still {i : Input κ} (still : e.advanced? i = none) :
    (e.step c i).1.posture = e.posture ∨ (∃ v, i = .vote v) ∨ (∃ id ended, i = .posted (.proposal id) ended) ∨
      ∃ caller p, i = .submit caller p ∧ (e.step c i).1.posture = (e.bearing, e.rounds ++ [e.opening c caller p]) := by
  cases i with
  | submit caller p =>
    obtain ⟨m, f, eq⟩ | ⟨-, m, eq⟩ := e.submit_cases c caller p
    · exact .inl (by rw [step, eq]; rfl)
    · exact .inr (.inr (.inr ⟨caller, p, rfl, by rw [step, eq]; rfl⟩))
  | vote v => exact .inr (.inl ⟨v, rfl⟩)
  | propagate => exact .inl (posture_propagate ..)
  | request caller sender m =>
    left
    simp only [step, request]
    split <;> rfl
  | approval sender m =>
    left
    simp only [step, approval]
    split
    · exact posture_apply ..
    · rfl
  | delivery sender m =>
    left
    simp only [step, delivery]
    split
    · rfl
    split
    · exact posture_apply ..
    · rfl
  | ack a =>
    left
    simp only [step, ack]
    split <;> rfl
  | apply => exact .inl (posture_apply ..)
  | posted errand ended =>
    cases errand with
    | proposal id => exact .inr (.inr (.inl ⟨id, ended, rfl⟩))
    | propagation id => exact .inl (posture_propagationPosted ..)
  | executed => exact .inl (posture_executed ..)
  | readAck => exact .inl (posture_readAck ..)
  | evaluated seat j =>
    cases seat with
    | peer => exact .inl rfl
    | proposer id => exact .inl (by rw [step, evaluated_of_still still])
  | readVote id => exact .inl (by rw [step, readVote_of_still still])

theorem bearing_vote (e : Engine κ) (v : ProposalVote) : (e.vote v).bearing = e.bearing := by
  unfold vote
  split <;> rfl

theorem bearing_requestPosted (e : Engine κ) (id : ProposalId) (ended : Except TransportFault Unit) :
    (e.requestPosted id ended).1.bearing = e.bearing := by
  obtain eq | ⟨r, -, -, ⟨-, eq⟩ | ⟨f, -, eq⟩⟩ := e.requestPosted_cases id ended
  · rw [eq]
  · rw [eq]
    rfl
  · rw [eq]
    rfl

theorem bearing_advanceRound (e : Engine κ) (r : Round κ) : (e.advanceRound c r).1.bearing = e.bearing := by
  unfold advanceRound closeRound
  split
  · split
    · exact congrArg Prod.fst (posture_apply ..)
    · rfl
  · rfl

theorem bearing_step (e : Engine κ) (i : Input κ) : (e.step c i).1.bearing = e.bearing := by
  cases moved : e.advanced? i with
  | some r =>
    obtain ⟨-, m, eq⟩ := step_of_advanced moved c
    rw [eq]
    exact bearing_advanceRound ..
  | none =>
    obtain same | ⟨v, rfl⟩ | ⟨id, ended, rfl⟩ | ⟨caller, p, -, opened⟩ := posture_step_of_still c moved
    · exact congrArg Prod.fst same
    · exact e.bearing_vote v
    · exact e.bearing_requestPosted id ended
    · exact congrArg Prod.fst opened

end Posture

/-! ## Steps -/

section Steps
variable {e : Engine κ} {c : Surroundings} {i : Input κ} {id : ProposalId} {r r' : Round κ} {o : Outcome}

theorem of_advanced (h : e.advanced? i = some r') :
    ∃ r, i.target? = some r.id ∧ e.round? r.id = some r ∧ r' = r.after e.self i := by
  unfold advanced? at h
  split at h
  · next id j =>
    obtain ⟨r, found, cast⟩ := Option.bind_eq_some_iff.mp h
    obtain rfl := id_of_round? found
    split at cast
    · next works =>
      refine ⟨r, rfl, found, ?_⟩
      rw [← Option.some.inj cast, Round.after, if_pos ⟨rfl, works⟩]
    · cases cast
  · next id =>
    obtain ⟨r, found, read⟩ := Option.bind_eq_some_iff.mp h
    obtain rfl := id_of_round? found
    split at read
    · next cast =>
      refine ⟨r, rfl, found, ?_⟩
      rw [← Option.some.inj read, Round.after, if_pos ⟨rfl, cast⟩]
    · cases read
  · cases h

theorem of_closing (h : e.closing? c i = some (r', o)) :
    e.advanced? i = some r' ∧ r'.outcome? e.fallback c.now = some o := by
  obtain ⟨r, moved, known⟩ := Option.bind_eq_some_iff.mp h
  obtain ⟨o', outcome, same⟩ := Option.map_eq_some_iff.mp known
  cases same
  exact ⟨moved, outcome⟩

theorem rounds_step_of_closing (h : e.closing? c i = some (r', o)) :
    (e.step c i).1.rounds = e.rounds.filter fun x => x.id ≠ r'.id := by
  obtain ⟨-, m, eq⟩ := step_of_closing h
  rw [eq, rounds_closeRound]

theorem round?_step_of_closing (h : e.closing? c i = some (r', o)) : (e.step c i).1.round? r'.id = none := by
  rw [round?, rounds_step_of_closing h, List.find?_eq_none]
  exact fun x hx => by simpa using (List.mem_filter.mp hx).2

theorem round?_step_of_closing_ne (h : e.closing? c i = some (r', o)) (found : e.round? id = some r)
    (other : r'.id ≠ id) : (e.step c i).1.round? id = some r := by
  rw [round?, rounds_step_of_closing h, find_filter_ne Round.id other]
  exact found

theorem of_abandoned {f : TransportFault} (h : e.abandoned? i = some (r, f)) :
    i = .posted (.proposal r.id) (.error f) ∧ e.round? r.id = some r ∧ r.progress = .posting := by
  unfold abandoned? at h
  split at h
  · next id f' =>
    obtain ⟨r', found, gives⟩ := Option.bind_eq_some_iff.mp h
    obtain rfl := id_of_round? found
    split at gives
    · next waits =>
      cases gives
      exact ⟨rfl, found, waits⟩
    · cases gives
  · cases h

/-- A round that is given up is taken off, and its caller is told why. -/
theorem step_of_abandoned {f : TransportFault} (h : e.abandoned? i = some (r, f)) (c : Surroundings) :
    e.step c i = (e.dropRound r.id).refuse r.caller (.transport f) := by
  obtain ⟨rfl, found, waits⟩ := of_abandoned h
  simp only [step, posted, requestPosted, found, if_pos waits]

theorem round?_step_of_abandoned {f : TransportFault} (h : e.abandoned? i = some (r, f)) (c : Surroundings) :
    (e.step c i).1.round? r.id = none := by
  rw [step_of_abandoned h]
  exact e.round?_dropRound_self r.id

/-- An input that moves no round on leaves a round as it is, offers it a vote or tells it that its
request is out. -/
theorem after_of_still (still : e.advanced? i = none) (found : e.round? r.id = some r) :
    r.after e.self i = r ∨ (∃ v, i = .vote v ∧ v.id = r.id ∧ r.after e.self i = r.offer v) ∨
      i = .posted (.proposal r.id) (.ok ()) ∧ r.progress = .posting ∧ r.after e.self i = r.sent := by
  by_cases target : i.target? = some r.id
  · unfold Input.target? at target
    split at target
    · next v => exact .inr (.inl ⟨v, rfl, Option.some.inj target, if_pos (Option.some.inj target)⟩)
    · next id ended =>
      obtain rfl := Option.some.inj target
      cases ended with
      | error f => exact .inl rfl
      | ok =>
        by_cases waits : r.progress = .posting
        · exact .inr (.inr ⟨rfl, waits, if_pos ⟨rfl, waits⟩⟩)
        · exact .inl (if_neg fun h => waits h.2)
    · next id j =>
      obtain rfl := Option.some.inj target
      have idle : r.progress ≠ .working := by
        intro works
        simp [advanced?, found, works] at still
      exact .inl (if_neg fun h => idle h.2)
    · next id =>
      obtain rfl := Option.some.inj target
      have first : ¬r.own.isSome = true := by
        intro cast
        simp [advanced?, found, cast] at still
      exact .inl (if_neg fun h => first h.2)
    · cases target
  · exact .inl (after_of_other target e.self)

theorem round?_vote (found : e.round? r.id = some r) (v : ProposalVote) :
    (e.vote v).round? r.id = some (if v.id = r.id then r.offer v else r) := by
  unfold vote
  split
  · next r₀ found₀ =>
    split
    · next same =>
      obtain rfl : r = r₀ := Option.some.inj (found.symm.trans (same ▸ found₀))
      exact round?_setRound_self found (r.id_offer v)
    · next other =>
      refine round?_setRound_ne found ?_
      rw [Round.id_offer, id_of_round? found₀]
      exact other
  · next none_ =>
    rw [if_neg fun same => by simp [same, found] at none_]
    exact found

theorem round?_requestPosted (found : e.round? r.id = some r) (id : ProposalId) (ended : Except TransportFault Unit) :
    (∃ f, e.abandoned? (.posted (.proposal id) ended) = some (r, f)) ∨
      (e.requestPosted id ended).1.round? r.id = some (r.after e.self (.posted (.proposal id) ended)) := by
  by_cases same : id = r.id
  · subst same
    by_cases waits : r.progress = .posting
    · cases ended with
      | error f => exact .inl ⟨f, abandoned_of_posting found waits f⟩
      | ok =>
        right
        simp only [requestPosted, found, if_pos waits, Round.after, true_and]
        exact round?_setRound_self found rfl
    · right
      have kept : r.after e.self (.posted (.proposal r.id) ended) = r := by
        cases ended with
        | error f => rfl
        | ok => exact if_neg fun h => waits h.2
      rw [kept]
      simp only [requestPosted, found, if_neg waits]
  · right
    rw [after_of_other (by simpa [Input.target?] using same)]
    obtain eq | ⟨r₀, found₀, -, ⟨-, eq⟩ | ⟨f, -, eq⟩⟩ := e.requestPosted_cases id ended
    · rw [eq]
      exact found
    · have apart : r₀.sent.id ≠ r.id := by rwa [Round.id_sent, id_of_round? found₀]
      rw [eq]
      exact round?_setRound_ne found apart
    · rw [eq]
      exact (round?_dropRound_ne same e).trans found

theorem round?_step_of_still (still : e.advanced? i = none) (found : e.round? r.id = some r) (c : Surroundings) :
    (∃ f, e.abandoned? i = some (r, f)) ∨ (e.step c i).1.round? r.id = some (r.after e.self i) := by
  obtain kept | ⟨v, rfl, -⟩ | ⟨rfl, -⟩ := after_of_still still found
  · obtain same | ⟨v, rfl⟩ | ⟨id, ended, rfl⟩ | ⟨caller, p, -, opened⟩ := posture_step_of_still c still
    · have rounds : (e.step c i).1.rounds = e.rounds := congrArg Prod.snd same
      right
      rw [round?, rounds, kept]
      exact found
    · exact .inr (round?_vote found v)
    · exact round?_requestPosted found id ended
    · have rounds : (e.step c i).1.rounds = e.rounds ++ [e.opening c caller p] := congrArg Prod.snd opened
      right
      rw [round?, rounds, kept, List.find?_append, show e.rounds.find? _ = some r from found, Option.some_or]
  · exact .inr (round?_vote found v)
  · exact round?_requestPosted found r.id (.ok ())

/-- A step ends a round as its input leaves it, gives it up, or leaves it so. -/
theorem round?_step (found : e.round? id = some r) (c : Surroundings) (i : Input κ) :
    (∃ o, e.closing? c i = some (r.after e.self i, o)) ∨ (∃ f, e.abandoned? i = some (r, f)) ∨
      (e.step c i).1.round? id = some (r.after e.self i) ∧ (∀ x, e.closing? c i = some x → x.1.id ≠ id) ∧
        (r.decided? = none → (r.after e.self i).decided? = none) := by
  obtain rfl := id_of_round? found
  cases moved : e.advanced? i with
  | none =>
    obtain gives | stays := round?_step_of_still moved found c
    · exact .inr (.inl gives)
    refine .inr (.inr ⟨stays, by simp [closing?, moved], fun undecided => ?_⟩)
    obtain same | ⟨v, -, -, offered⟩ | ⟨-, -, out⟩ := after_of_still moved found
    · rw [same, undecided]
    · rw [offered, Round.decided_offer, undecided]
    · rw [out, Round.decided_of_waiting r.own_sent]
  | some r' =>
    obtain ⟨r₀, target, found₀, rfl⟩ := of_advanced moved
    by_cases same : r₀.id = r.id
    · obtain rfl : r = r₀ := Option.some.inj (found.symm.trans (same ▸ found₀))
      cases known : (r.after e.self i).outcome? e.fallback c.now with
      | some o => exact .inl ⟨o, by simp [closing?, moved, known]⟩
      | none =>
        obtain ⟨-, m, eq⟩ := step_of_advanced moved c
        refine .inr (.inr ⟨?_, by simp [closing?, moved, known], fun _ => Round.undecided_of_open known⟩)
        rw [eq, advanceRound]
        simp only [known]
        exact round?_setRound_self found (r.id_after e.self i)
    · have kept : r.after e.self i = r := after_of_other (by rw [target]; simpa using same) e.self
      have other : (r₀.after e.self i).id ≠ r.id := by rwa [r₀.id_after]
      rw [kept]
      cases known : (r₀.after e.self i).outcome? e.fallback c.now with
      | some o =>
        have closes : e.closing? c i = some (r₀.after e.self i, o) := by simp [closing?, moved, known]
        refine .inr (.inr ⟨round?_step_of_closing_ne closes found other, fun x hx => ?_, id⟩)
        rw [← Option.some.inj (closes.symm.trans hx)]
        exact other
      | none =>
        obtain ⟨-, m, eq⟩ := step_of_advanced moved c
        refine .inr (.inr ⟨?_, by simp [closing?, moved, known], id⟩)
        rw [eq, advanceRound]
        simp only [known]
        exact round?_setRound_ne found other

/-- A round that is there after a step and was not before is one that the step opens. -/
theorem opening_of_new (new : e.round? id = none) (found : (e.step c i).1.round? id = some r) :
    ∃ caller p, i = .submit caller p ∧ p.id = id ∧ r = e.opening c caller p := by
  have absent : ∀ x ∈ e.rounds, x.id ≠ id := by simpa using List.find?_eq_none.mp new
  have same := id_of_round? found
  have held : r ∈ (e.step c i).1.rounds := List.mem_of_find?_eq_some found
  have course := course_step e c i
  generalize (e.step c i).1.rounds = rounds at held course
  generalize messages (e.step c i).2 = sent at course
  cases course with
  | idle | answered | propagated => exact (absent r held same).elim
  | opened caller p asked =>
    rcases List.mem_append.mp held with old | new
    · exact (absent r old same).elim
    · obtain rfl := List.mem_singleton.mp new
      exact ⟨caller, p, asked, same, rfl⟩
  | advanced r₀ r' =>
    obtain ⟨x, hx, rfl⟩ := List.mem_map.mp held
    split at same
    · next kept => exact (absent x hx (kept.trans same)).elim
    · exact (absent x hx same).elim
  | closed | abandoned => exact (absent r (List.mem_filter.mp held).1 same).elim

end Steps

/-! ## Answers -/

/-- Whether an engine is to answer only what is due once its applications have ended. -/
def Owes (due : κ → ProposalResult → Prop) (e : Engine κ) : Prop :=
  ∀ a ∈ e.applications, ∀ result caller, a.purpose = .commit result caller → due caller result

/-- Whether a step answers submissions with what is due, and owes nothing else. -/
structure Answers (due : κ → ProposalResult → Prop) (s : Step κ) : Prop where
  told : ∀ caller result, .submitted caller (.ok result) ∈ s.2 → due caller result
  owes : Owes due s.1

section Answers
variable {due : κ → ProposalResult → Prop} {e e' : Engine κ} {c : Surroundings} {r : Round κ} {o : Outcome}
  {purpose : Purpose κ} {id : ProposalId}

theorem Owes.quiet (h : Owes due e) : Answers due (e, []) := ⟨by simp, h⟩

theorem Owes.congr (h : Owes due e) (applications : e'.applications = e.applications) : Owes due e' :=
  fun a ha => h a (applications ▸ ha)

theorem not_submitted_publish {env : Envelope} {caller : κ} {ended : Except Fault ProposalResult} :
    .submitted caller ended ∉ publish c env := by
  unfold publish
  split <;> simp

theorem applications_closePropagation (e : Engine κ) (c : Surroundings) (p : Propagation κ) :
    (e.closePropagation c p).1.applications = e.applications :=
  congrArg Books.applications (e.books_closePropagation c p)

theorem Owes.closePropagation (h : Owes due e) (p : Propagation κ) : Answers due (e.closePropagation c p) := by
  refine ⟨fun caller result told => ?_, h.congr (e.applications_closePropagation c p)⟩
  unfold Engine.closePropagation at told
  split at told
  · simp at told
  · cases told

theorem Owes.settle (h : Owes due e) {ended : Except Fault Bool}
    (why : ∀ result caller, purpose = .commit result caller → due caller result) :
    Answers due (e.settle c id purpose ended) := by
  cases purpose with
  | commit result caller =>
    refine ⟨fun caller' result' told => ?_, h⟩
    cases ended with
    | error f => simp [Engine.settle, Except.map] at told
    | ok applied =>
      obtain ⟨rfl, rfl⟩ : caller' = caller ∧ result' = result := by simpa [Engine.settle, Except.map] using told
      exact why _ _ rfl
  | propagation =>
    simp only [Engine.settle]
    split
    · exact h.closePropagation _
    · exact h.quiet
  | approval => exact h.quiet
  | delivery sender => exact ⟨fun _ _ told => (not_submitted_publish told).elim, h⟩
  | direct caller => exact ⟨by simp [Engine.settle], h⟩

theorem Owes.apply (h : Owes due e) {action : String} {params : Json}
    (why : ∀ result caller, purpose = .commit result caller → due caller result) :
    Answers due (e.apply c id action params purpose) := by
  obtain ⟨ledger, metrics, outputs, ended, -, announced, eq⟩ | ⟨-, ledger, eq⟩ :=
    e.apply_cases c id action params purpose
  · have kept : Owes due { e with ledger, metrics } := h
    have settled : Answers due ({ e with ledger, metrics }.settle c id purpose ended) := kept.settle why
    rw [eq]
    refine ⟨fun caller result told => ?_, settled.owes⟩
    rcases List.mem_append.mp told with first | last
    · obtain ⟨event, said⟩ := announced _ first
      cases said
    · exact settled.told caller result last
  · rw [eq]
    refine ⟨by simp, fun a ha => ?_⟩
    rcases List.mem_append.mp ha with old | new
    · exact h a old
    · rw [List.mem_singleton.mp new]
      exact why

theorem Owes.executed (h : Owes due e) (ticket : Nat) (ended : Except ExecutionFault Unit) :
    Answers due (e.executed c ticket ended) := by
  obtain ⟨-, eq⟩ | ⟨a, metrics, outputs, result, found, -, announced, eq⟩ := e.executed_cases c ticket ended
  · rw [eq]
    exact h.quiet
  · have open_ : a ∈ e.applications := List.mem_of_find?_eq_some found
    have left : Owes due { e.release a ended with metrics } := fun a' ha' => h a' (List.mem_filter.mp ha').1
    have settled : Answers due ({ e.release a ended with metrics }.settle c a.id a.purpose result) :=
      left.settle fun result caller commit => h a open_ result caller commit
    rw [eq]
    refine ⟨fun caller result told => ?_, settled.owes⟩
    rcases List.mem_append.mp told with first | last
    · obtain ⟨event, said⟩ := announced _ first
      cases said
    · exact settled.told caller result last

theorem Owes.closeRound (h : Owes due e) (fits : due r.caller (r.result o)) : Answers due (e.closeRound c r o) := by
  have rest : Owes due (e.endRound r o) := h
  unfold Engine.closeRound
  split
  · have applied : Answers due ((e.endRound r o).apply c r.id r.proposal.action r.proposal.params
        (.commit (r.result o) r.caller)) := by
      refine rest.apply fun result caller commit => ?_
      cases commit
      exact fits
    refine ⟨fun caller result told => ?_, applied.owes⟩
    rcases List.mem_cons.mp told with said | told
    · cases said
    rcases List.mem_append.mp told with sent | last
    · exact (not_submitted_publish sent).elim
    · exact applied.told caller result last
  · refine ⟨fun caller result told => ?_, rest⟩
    obtain ⟨rfl, rfl⟩ : caller = r.caller ∧ result = r.result o := by simpa [resolved] using told
    exact fits

theorem Owes.advanced {i : Input κ} (h : Owes due e) (moved : e.advanced? i = some r)
    (fits : ∀ r o, e.closing? c i = some (r, o) → due r.caller (r.result o)) : Answers due (e.step c i) := by
  obtain ⟨-, m, eq⟩ := step_of_advanced moved c
  have kept : Owes due { e with metrics := m } := h
  rw [eq, advanceRound]
  cases known : r.outcome? e.fallback c.now with
  | some o =>
    have closes : e.closing? c i = some (r, o) := by simp [closing?, moved, known]
    simpa only [known] using kept.closeRound (fits r o closes)
  | none =>
    have set_ : Owes due (({ e with metrics := m } : Engine κ).setRound r) := h
    simpa only [known] using set_.quiet

theorem Owes.submit (h : Owes due e) (caller : κ) (p : Proposal) : Answers due (e.submit c caller p) := by
  obtain ⟨m, f, eq⟩ | ⟨-, m, eq⟩ := e.submit_cases c caller p
  · rw [eq]
    exact ⟨by simp [refuse], h⟩
  · rw [eq]
    exact ⟨by simp, h⟩

theorem Owes.requestPosted (h : Owes due e) (id : ProposalId) (ended : Except TransportFault Unit) :
    Answers due (e.requestPosted id ended) := by
  obtain eq | ⟨r, -, -, ⟨-, eq⟩ | ⟨f, -, eq⟩⟩ := e.requestPosted_cases id ended
  · rw [eq]
    exact h.quiet
  · rw [eq]
    exact ⟨by simp, h⟩
  · rw [eq]
    exact ⟨by simp [refuse], h⟩

theorem Owes.propagate (h : Owes due e) (caller : κ) (id : ProposalId) (action : String) (params : Json)
    (timeout : Nat) : Answers due (e.propagate c caller id action params timeout) := by
  obtain ⟨-, eq⟩ | ⟨-, eq⟩ := e.propagate_cases c caller id action params timeout
  · rw [eq]
    exact ⟨by simp [declinePropagation], h⟩
  · rw [eq]
    exact ⟨by simp, h⟩

theorem Owes.propagationPosted (h : Owes due e) (id : ProposalId) (ended : Except TransportFault Unit) :
    Answers due (e.propagationPosted c id ended) := by
  obtain eq | ⟨p, -, -, ⟨-, eq⟩ | ⟨f, -, eq⟩⟩ := e.propagationPosted_cases c id ended
  · rw [eq]
    exact h.quiet
  · have sent : Owes due (e.setPropagation p.sent) := h
    rw [eq]
    exact sent.apply (by simp)
  · rw [eq]
    exact ⟨by simp [declinePropagation], h⟩

theorem Owes.readAck (h : Owes due e) (id : ProposalId) : Answers due (e.readAck c id) := by
  unfold Engine.readAck
  split
  · exact h.quiet
  · split
    · exact h.closePropagation _
    · exact h.quiet

/-- A step answers what is owed, or the submission whose round it ends. -/
theorem Owes.step {i : Input κ} (h : Owes due e)
    (fits : ∀ r o, e.closing? c i = some (r, o) → due r.caller (r.result o)) : Answers due (e.step c i) := by
  cases moved : e.advanced? i with
  | some r => exact h.advanced moved fits
  | none =>
    cases i with
    | submit caller p => exact h.submit caller p
    | propagate caller id action params timeout => exact h.propagate caller id action params timeout
    | request caller sender m =>
      simp only [Engine.step, request]
      split <;> exact ⟨by simp, h⟩
    | vote v =>
      have voted : Owes due (e.vote v) := by
        unfold Engine.vote
        split <;> exact h
      exact voted.quiet
    | approval sender m =>
      have counted : Owes due e.countUnauthorized := h
      simp only [Engine.step, approval]
      split
      · exact h.apply (by simp)
      · exact counted.quiet
    | delivery sender m =>
      have counted : Owes due e.countUnauthorized := h
      simp only [Engine.step, delivery]
      split
      · exact h.quiet
      split
      · exact h.apply (by simp)
      · exact counted.quiet
    | ack a =>
      have routed : Owes due (e.ack a) := by
        unfold Engine.ack
        split <;> exact h
      exact routed.quiet
    | apply caller id action params => exact h.apply (by simp)
    | posted errand ended =>
      cases errand with
      | proposal id => exact h.requestPosted id ended
      | propagation id => exact h.propagationPosted id ended
    | executed ticket ended => exact h.executed ticket ended
    | readAck id => exact h.readAck id
    | readVote id =>
      rw [Engine.step, readVote_of_still moved]
      exact h.quiet
    | evaluated seat j =>
      cases seat with
      | peer sender id caller =>
        refine ⟨fun caller result told => ?_, h⟩
        rcases List.mem_append.mp told with sent | rest
        · exact (not_submitted_publish sent).elim
        · cases List.mem_singleton.mp rest
      | proposer id =>
        rw [Engine.step, evaluated_of_still moved]
        exact h.quiet

end Answers

end Engine

end FleetCoordination
