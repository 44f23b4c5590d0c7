import FleetCoordination.Proofs.Engine.Standing
/-!
# The course of submissions

A submission is owed an answer while its round is open or its commit is with the executor. A
step answers what it stops to owe. It announces the resolution of a round just when it ends
the round.
-/
namespace FleetCoordination

/-- Who is told the result of an application as that of a submission. -/
def Purpose.submitter? {κ : Type} : Purpose κ → Option κ
  | .commit _ caller => some caller
  | _ => none

namespace Engine
variable {κ : Type}

def Output.resolution? : Output κ → Option ProposalId
  | .announce (.proposalResolved id ..) => some id
  | _ => none

def Output.answered? : Output κ → Option κ
  | .submitted caller _ => some caller
  | _ => none

/-- The proposals announced as resolved in a list of outputs, in order. -/
def resolutions (outputs : List (Output κ)) : List ProposalId := outputs.filterMap Output.resolution?

/-- The submissions answered in a list of outputs, in order. -/
def answered (outputs : List (Output κ)) : List κ := outputs.filterMap Output.answered?

section Outputs
variable (o : Output κ) (xs ys : List (Output κ)) (c : Surroundings)

@[simp] theorem resolutions_nil : resolutions ([] : List (Output κ)) = [] := rfl
@[simp] theorem answered_nil : answered ([] : List (Output κ)) = [] := rfl

@[simp] theorem resolutions_cons : resolutions (o :: xs) = o.resolution?.toList ++ resolutions xs := by
  cases h : o.resolution? <;> simp [resolutions, h]

@[simp] theorem answered_cons : answered (o :: xs) = o.answered?.toList ++ answered xs := by
  cases h : o.answered? <;> simp [answered, h]

@[simp] theorem resolutions_append : resolutions (xs ++ ys) = resolutions xs ++ resolutions ys := by
  simp [resolutions]

@[simp] theorem answered_append : answered (xs ++ ys) = answered xs ++ answered ys := by
  simp [answered]

@[simp] theorem resolutions_publish (env : Envelope) : resolutions (publish c env : List (Output κ)) = [] := by
  unfold publish
  split <;> rfl

@[simp] theorem answered_publish (env : Envelope) : answered (publish c env : List (Output κ)) = [] := by
  unfold publish
  split <;> rfl

theorem mem_answered {caller : κ} : caller ∈ answered xs ↔ ∃ result, .submitted caller result ∈ xs := by
  simp only [answered, List.mem_filterMap]
  constructor
  · rintro ⟨o, ho, told⟩
    cases o with
    | submitted k result =>
      cases told
      exact ⟨result, ho⟩
    | _ => cases told
  · exact fun ⟨result, ho⟩ => ⟨_, ho, rfl⟩

end Outputs

/-- The submissions that are owed an answer. -/
def owing (e : Engine κ) : List κ :=
  e.rounds.map (·.caller) ++ e.applications.filterMap fun a => a.purpose.submitter?

def Input.submitter? : Input κ → Option κ
  | .submit caller _ => some caller
  | _ => none

/-! ## One entry of many -/

/-- A list without the one entry of a key. -/
theorem perm_filter_ne {α β : Type} [DecidableEq β] {f : α → β} {xs : List α} (once : (xs.map f).Nodup) {x : α}
    (hx : x ∈ xs) : xs.Perm (x :: xs.filter fun y => f y ≠ f x) := by
  induction xs with
  | nil => cases hx
  | cons y ys ih =>
    obtain ⟨new, once⟩ := List.nodup_cons.mp once
    rcases List.mem_cons.mp hx with rfl | later
    · have others : ys.filter (fun y => f y ≠ f x) = ys := by
        refine List.filter_eq_self.mpr fun y hy => ?_
        simpa using fun same : f y = f x => new (same ▸ List.mem_map_of_mem hy)
      rw [List.filter_cons_of_neg (by simp), others]
    · have other : f y ≠ f x := fun same => new (same ▸ List.mem_map_of_mem later)
      rw [List.filter_cons_of_pos (by simpa using other)]
      exact ((ih once later).cons y).trans (.swap x y _)

section Rounds
variable {e e' : Engine κ} {r r₀ : Round κ}

theorem owing_congr (rounds : e'.rounds.map (·.caller) = e.rounds.map (·.caller))
    (applications : e'.applications = e.applications) : e'.owing = e.owing := by
  simp only [owing, rounds, applications]

theorem ids_setRound (e : Engine κ) (r : Round κ) : (e.setRound r).rounds.map Round.id = e.rounds.map Round.id := by
  simp only [setRound, List.map_map]
  refine List.map_congr_left fun x _ => ?_
  by_cases same : x.id = r.id <;> simp [same]

theorem callers_setRound (once : (e.rounds.map Round.id).Nodup) (held : r₀ ∈ e.rounds)
    (charter : r.charter = r₀.charter) :
    (e.setRound r).rounds.map (·.caller) = e.rounds.map (·.caller) := by
  have id : r.id = r₀.id := congrArg (fun x => x.2.1.id) charter
  have caller : r.caller = r₀.caller := congrArg (·.1) charter
  simp only [setRound, List.map_map]
  refine List.map_congr_left fun x hx => ?_
  by_cases same : x.id = r.id
  · obtain rfl : x = r₀ := List.inj_on_of_nodup_map once hx held (same.trans id)
    simp [same, caller]
  · simp [same]

theorem callers_dropRound (once : (e.rounds.map Round.id).Nodup) (held : r₀ ∈ e.rounds)
    (charter : r.charter = r₀.charter) :
    (e.rounds.map (·.caller)).Perm (r.caller :: (e.dropRound r.id).rounds.map (·.caller)) := by
  have id : r.id = r₀.id := congrArg (fun x => x.2.1.id) charter
  have caller : r.caller = r₀.caller := congrArg (·.1) charter
  have dropped := (perm_filter_ne once held).map (·.caller)
  rwa [← id, List.map_cons, ← caller] at dropped

end Rounds

/-! ## Parts of a step -/

/-- What a part of a step resolves, and that it answers the submissions that it is due to
answer or owes them on. -/
structure Balances (due : List κ) (resolved : List ProposalId) (s : Step κ) : Prop where
  resolutions : resolutions s.2 = resolved
  answers : (answered s.2 ++ s.1.owing).Perm due

section Parts
variable (c : Surroundings)

theorem balances_quiet {e e' : Engine κ} (same : e'.owing = e.owing) : Balances e.owing [] (e', []) :=
  ⟨rfl, same ▸ .refl _⟩

theorem balances_closePropagation (e : Engine κ) (p : Propagation κ) :
    Balances e.owing [] (e.closePropagation c p) := by
  have same : (e.closePropagation c p).1.owing = e.owing :=
    owing_congr (congrArg (·.2.map (·.caller)) (e.posture_closePropagation c p)) (e.applications_closePropagation c p)
  have silent : answered (e.closePropagation c p).2 = [] ∧ resolutions (e.closePropagation c p).2 = [] := by
    unfold closePropagation
    split <;> exact ⟨rfl, rfl⟩
  exact ⟨silent.2, by rw [silent.1, same]; exact .refl _⟩

theorem balances_settle (e : Engine κ) (id : ProposalId) (purpose : Purpose κ) (result : Except Fault Bool) :
    Balances (purpose.submitter?.toList ++ e.owing) [] (e.settle c id purpose result) := by
  cases purpose with
  | propagation =>
    simp only [settle]
    split
    · exact e.balances_closePropagation c _
    · exact balances_quiet rfl
  | delivery sender =>
    refine ⟨resolutions_publish .., ?_⟩
    rw [settle, reply, answered_publish]
    exact .refl _
  | commit | approval | direct => exact ⟨rfl, .refl _⟩

theorem balances_apply (e : Engine κ) (id : ProposalId) (action : String) (params : Json) (purpose : Purpose κ) :
    Balances (purpose.submitter?.toList ++ e.owing) [] (e.apply c id action params purpose) := by
  unfold apply
  generalize e.ledger.start id action params = started
  obtain ⟨ledger, opening⟩ := started
  cases opening with
  | repeated earlier => exact balances_settle c (countDuplicate { e with ledger }) ..
  | refused cause => exact balances_settle c { e with ledger } ..
  | reassigned changes =>
    obtain ⟨resolved, answers⟩ := balances_settle c (countCommit { e with ledger }) id purpose (.ok true)
    have events :
        resolutions (changes.map fun change => (.announce (.roleReassigned change id (time c)) : Output κ)) = [] ∧
        answered (changes.map fun change => (.announce (.roleReassigned change id (time c)) : Output κ)) = [] := by
      constructor <;> exact List.filterMap_eq_nil_iff.mpr fun o ho => by
        obtain ⟨change, -, rfl⟩ := List.mem_map.mp ho
        rfl
    refine ⟨?_, ?_⟩
    · rw [resolutions_append, events.1, resolutions_cons, resolved]
      rfl
    · rw [answered_append, events.2, answered_cons]
      exact answers
  | handed =>
    have last : [(⟨e.tickets, id, action, purpose⟩ : Application κ)].filterMap (fun a => a.purpose.submitter?) =
        purpose.submitter?.toList := by cases h : purpose.submitter? <;> simp [h]
    refine ⟨rfl, ?_⟩
    have silent : answered [(.execute e.tickets action params : Output κ)] = [] := rfl
    simp only [silent, owing, List.filterMap_append, last, List.nil_append, ← List.append_assoc]
    rw [List.append_assoc purpose.submitter?.toList]
    exact List.perm_append_comm

theorem balances_executed {e : Engine κ} (once : (e.applications.map (·.ticket)).Nodup) (ticket : Nat)
    (ended : Except ExecutionFault Unit) : Balances e.owing [] (e.executed c ticket ended) := by
  unfold executed
  split
  · exact balances_quiet rfl
  · next a found =>
    have open_ : a ∈ e.applications := List.mem_of_find?_eq_some found
    have released : (a.purpose.submitter?.toList ++ (e.release a ended).owing).Perm e.owing := by
      have split := (perm_filter_ne once open_).filterMap fun a => a.purpose.submitter?
      have first (rest : List (Application κ)) : (a :: rest).filterMap (fun a => a.purpose.submitter?) =
          a.purpose.submitter?.toList ++ rest.filterMap fun a => a.purpose.submitter? := by
        cases h : a.purpose.submitter? <;> simp [h]
      rw [first] at split
      exact (List.perm_append_comm_assoc ..).trans (split.symm.append_left _)
    split
    · next done =>
      obtain ⟨resolved, answers⟩ := (e.release a (.ok done)).countCommit.balances_settle c a.id a.purpose (.ok true)
      refine ⟨by simpa [committed, Output.resolution?] using resolved, ?_⟩
      rw [answered_cons]
      exact answers.trans released
    · obtain ⟨resolved, answers⟩ := (e.release a (.error _)).balances_settle c a.id a.purpose _
      exact ⟨resolved, answers.trans released⟩

section Rounds
variable {e : Engine κ} {r r₀ : Round κ} (once : (e.rounds.map Round.id).Nodup) (held : r₀ ∈ e.rounds)
  (charter : r.charter = r₀.charter)
include once held charter

theorem balances_closeRound (o : Outcome) : Balances e.owing [r.id] (e.closeRound c r o) := by
  have dropped : (r.caller :: (e.endRound r o).owing).Perm e.owing :=
    ((callers_dropRound once held charter).symm.append_right _)
  unfold closeRound
  dsimp only
  split
  · obtain ⟨resolved, answers⟩ := (e.endRound r o).balances_apply c r.id r.proposal.action r.proposal.params
      (.commit (r.result o) r.caller)
    refine ⟨by simp [Engine.resolved, Output.resolution?, broadcast, resolved], ?_⟩
    rw [answered_cons, answered_append, broadcast, answered_publish]
    exact answers.trans dropped
  · exact ⟨rfl, dropped⟩

theorem balances_advanceRound :
    Balances e.owing ((r.outcome? e.fallback c.now).toList.map fun _ => r.id) (e.advanceRound c r) := by
  unfold advanceRound
  cases r.outcome? e.fallback c.now with
  | some o => exact balances_closeRound c once held charter o
  | none => exact balances_quiet (owing_congr (callers_setRound once held charter) rfl)

end Rounds

theorem balances_submit (e : Engine κ) (caller : κ) (p : Proposal) :
    Balances (caller :: e.owing) [] (e.submit c caller p) := by
  obtain ⟨m, f, eq⟩ | ⟨-, m, eq⟩ := e.submit_cases c caller p
  · rw [eq]
    exact ⟨rfl, .refl _⟩
  · have opened : [e.opening c caller p].map (·.caller) = [caller] := rfl
    have silent : answered [(.post (.proposal p.id) (e.call c p) : Output κ)] = [] := rfl
    rw [eq]
    refine ⟨rfl, ?_⟩
    simp only [owing, List.map_append, opened, silent, List.nil_append, List.append_assoc]
    exact List.perm_append_comm_assoc ..

/-- A round that is given up is answered at once. -/
theorem balances_requestPosted {e : Engine κ} (once : (e.rounds.map Round.id).Nodup) (id : ProposalId)
    (ended : Except TransportFault Unit) : Balances e.owing [] (e.requestPosted id ended) := by
  obtain eq | ⟨r, found, -, ⟨-, eq⟩ | ⟨f, -, eq⟩⟩ := e.requestPosted_cases id ended
  · rw [eq]
    exact balances_quiet rfl
  · have kept : (e.setRound r.sent).owing = e.owing :=
      owing_congr (callers_setRound once (List.mem_of_find?_eq_some found) rfl) rfl
    rw [eq]
    exact ⟨rfl, kept ▸ .refl _⟩
  · obtain rfl := id_of_round? found
    rw [eq]
    exact ⟨rfl, (callers_dropRound once (List.mem_of_find?_eq_some found) rfl).symm.append_right _⟩

theorem balances_propagate (e : Engine κ) (caller : κ) (id : ProposalId) (action : String) (params : Json)
    (timeout : Nat) : Balances e.owing [] (e.propagate c caller id action params timeout) := by
  obtain ⟨-, eq⟩ | ⟨-, eq⟩ := e.propagate_cases c caller id action params timeout
  · rw [eq]
    exact ⟨rfl, .refl _⟩
  · rw [eq]
    exact ⟨rfl, .refl _⟩

theorem balances_propagationPosted (e : Engine κ) (id : ProposalId) (ended : Except TransportFault Unit) :
    Balances e.owing [] (e.propagationPosted c id ended) := by
  obtain eq | ⟨p, -, -, ⟨-, eq⟩ | ⟨f, -, eq⟩⟩ := e.propagationPosted_cases c id ended
  · rw [eq]
    exact balances_quiet rfl
  · rw [eq]
    exact (e.setPropagation p.sent).balances_apply c id p.action p.params .propagation
  · rw [eq]
    exact ⟨rfl, .refl _⟩

/-- A step resolves the round that it ends, and what is owed or asked for it answers or owes
on. -/
theorem balances_step {e : Engine κ} (rounds : (e.rounds.map Round.id).Nodup)
    (tickets : (e.applications.map (·.ticket)).Nodup) (i : Input κ) :
    Balances (i.submitter?.toList ++ e.owing) ((e.closing? c i).toList.map (·.1.id)) (e.step c i) := by
  cases moved : e.advanced? i with
  | some r =>
    obtain ⟨⟨r₀, held, charter⟩, m, eq⟩ := step_of_advanced moved c
    have silent : i.submitter? = none := by cases i <;> first | rfl | cases moved
    have closing : (e.closing? c i).toList.map (·.1.id) = (r.outcome? e.fallback c.now).toList.map fun _ => r.id := by
      rw [closing?, moved, Option.bind_some]
      cases r.outcome? e.fallback c.now <;> rfl
    rw [eq, silent, closing]
    exact balances_advanceRound (e := { e with metrics := m }) c rounds held charter
  | none =>
    have open_ : e.closing? c i = none := by rw [closing?, moved, Option.bind_none]
    rw [open_]
    cases i with
    | submit caller p => exact e.balances_submit c caller p
    | propagate caller id action params timeout => exact e.balances_propagate c caller id action params timeout
    | request caller sender m =>
      simp only [step, request]
      split <;> exact ⟨rfl, .refl _⟩
    | vote v =>
      refine balances_quiet (e := e) ?_
      unfold vote
      split
      · next r found =>
        exact owing_congr (callers_setRound rounds (List.mem_of_find?_eq_some found) (charter_offer r v)) rfl
      · rfl
    | approval sender m =>
      simp only [step, approval]
      split
      · exact e.balances_apply c m.id m.action m.params .approval
      · exact balances_quiet (e := e) rfl
    | delivery sender m =>
      simp only [step, delivery]
      split
      · exact balances_quiet (e := e) rfl
      split
      · exact e.balances_apply c m.id m.action m.params (.delivery sender)
      · exact balances_quiet (e := e) rfl
    | ack a =>
      simp only [step, ack]
      split <;> exact balances_quiet (e := e) rfl
    | apply caller id action params => exact e.balances_apply c id action params (.direct caller)
    | posted errand ended =>
      cases errand with
      | proposal id => exact balances_requestPosted rounds id ended
      | propagation id => exact e.balances_propagationPosted c id ended
    | executed ticket ended => exact balances_executed c tickets ticket ended
    | readAck id =>
      simp only [step, readAck]
      split
      · exact balances_quiet (e := e) rfl
      · split
        · exact e.balances_closePropagation c _
        · exact balances_quiet (e := e) rfl
    | readVote id =>
      rw [step, readVote_of_still moved]
      exact balances_quiet (e := e) rfl
    | evaluated seat j =>
      cases seat with
      | proposer id =>
        rw [step, evaluated_of_still moved]
        exact balances_quiet (e := e) rfl
      | peer sender id caller =>
        simp only [step, evaluated, reply]
        refine ⟨by simp [Output.resolution?], ?_⟩
        rw [answered_append, answered_publish]
        exact .refl _

end Parts

end Engine

end FleetCoordination
