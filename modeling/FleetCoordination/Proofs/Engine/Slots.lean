import FleetCoordination.Proofs.Engine.Propagations
import FleetCoordination.Proofs.Engine.Resolution
/-!
# Slots

A proposal has a round from the turn that admits a submission of it to the turn that announces
its resolution or in which the bus fails its request, and at most one at a time; with
propagations it is the same. Every call is answered or under way. A call that is refused and a
vote or an acknowledgement of another proposal leave a slot alone.
-/
namespace FleetCoordination.Engine
variable {κ : Type}

/-- The rounds under way, by who waits for them and what they are about. -/
def slots (e : Engine κ) : List (κ × ProposalId) := e.rounds.map fun r => (r.caller, r.id)

/-- The propagations under way, by who waits for them and what they are about. -/
def ackSlots (e : Engine κ) : List (κ × ProposalId) := e.propagations.map Propagation.charter

namespace Turn
variable (t : Turn κ)

/-- Whether a turn takes a submission up, without an answer yet. -/
def Admits (caller : κ) (id : ProposalId) : Prop :=
  (∃ p, t.input = .submit caller p ∧ p.id = id) ∧ ∀ result, .submitted caller result ∉ t.outputs

/-- Whether a turn announces the resolution of a proposal. -/
def Resolves (id : ProposalId) : Prop :=
  ∃ action outcome grants denies quorum time,
    .announce (.proposalResolved id action outcome grants denies quorum time) ∈ t.outputs

/-- Whether a turn puts a propagation under way, without an answer yet. -/
def Claims (caller : κ) (id : ProposalId) : Prop :=
  (∃ action params timeout, t.input = .propagate caller id action params timeout) ∧
    ∀ result, .propagated caller result ∉ t.outputs

/-- Whether a turn reports a propagation. -/
def Completes (id : ProposalId) : Prop := ∃ caller r, .propagated caller (.ok r) ∈ t.outputs ∧ r.id = id

/-- Whether the bus fails the request of a proposal in a turn, and the submission is told so. -/
def FailsRequest (id : ProposalId) : Prop :=
  ∃ f caller, t.input = .posted (.proposal id) (.error f) ∧ .submitted caller (.error (.transport f)) ∈ t.outputs

/-- Whether the bus fails the message of a propagation in a turn, and the call is told so. -/
def FailsMessage (id : ProposalId) : Prop :=
  ∃ f caller, t.input = .posted (.propagation id) (.error f) ∧ .propagated caller (.error (.transport f)) ∈ t.outputs

/-- Whether a turn ends the round of a proposal. -/
def EndsRound (id : ProposalId) : Prop := t.Resolves id ∨ t.FailsRequest id

/-- Whether a turn ends a propagation. -/
def EndsPropagation (id : ProposalId) : Prop := t.Completes id ∨ t.FailsMessage id

end Turn

/-! ## Spans of turns -/

/-- Whether something that one of some turns has begun has not been ended by a later one. -/
def Underway (begins ends : Turn κ → Prop) (turns : List (Turn κ)) : Prop :=
  ∃ past s run, turns = past ++ s :: run ∧ begins s ∧ ∀ u ∈ run, ¬ends u

theorem underway_snoc {begins ends : Turn κ → Prop} {turns : List (Turn κ)} {t : Turn κ} :
    Underway begins ends (turns ++ [t]) ↔ begins t ∨ (Underway begins ends turns ∧ ¬ends t) := by
  constructor
  · rintro ⟨past, s, run, split, begun, lasts⟩
    obtain ⟨-, rfl, -⟩ | ⟨run, rfl, rfl⟩ := split_of_snoc split
    · exact .inl begun
    · exact .inr ⟨⟨past, s, run, rfl, begun, fun u hu => lasts u (List.mem_append_left _ hu)⟩, lasts t (by simp)⟩
  · rintro (begun | ⟨⟨past, s, run, rfl, begun, lasts⟩, stays⟩)
    · exact ⟨turns, t, [], rfl, begun, by simp⟩
    · refine ⟨past, s, run ++ [t], by simp, begun, List.forall_mem_append.mpr ⟨lasts, ?_⟩⟩
      exact List.forall_mem_singleton.mpr stays

/-- Whether nothing is begun for an id that has something under way. -/
def Alone (begins : Turn κ → κ → ProposalId → Prop) (ends : Turn κ → ProposalId → Prop) (turns : List (Turn κ)) :
    Prop :=
  ∀ past s run caller id, turns = past ++ s :: run → begins s caller id → (∀ u ∈ run, ¬ends u id) →
    ∀ u ∈ run, ∀ other, ¬begins u other id

/-- What a turn does to slots: it fills one that is free, frees one, or leaves them alone. -/
structure Turned (begins : κ → ProposalId → Prop) (ends : ProposalId → Prop) (slots slots' : List (κ × ProposalId)) :
    Prop where
  mem : ∀ caller id, (caller, id) ∈ slots' ↔ begins caller id ∨ ((caller, id) ∈ slots ∧ ¬ends id)
  free : ∀ caller id, begins caller id → ∀ s ∈ slots, s.2 ≠ id
  once : (slots'.map Prod.snd).Nodup

/-- Slots are filled while what has begun is under way. -/
structure Filled (begins : Turn κ → κ → ProposalId → Prop) (ends : Turn κ → ProposalId → Prop) (turns : List (Turn κ))
    (slots : List (κ × ProposalId)) : Prop where
  mem : ∀ caller id, (caller, id) ∈ slots ↔ Underway (begins · caller id) (ends · id) turns
  once : (slots.map Prod.snd).Nodup
  alone : Alone begins ends turns

section Spans
variable {origin e : Engine κ} {turns : List (Turn κ)} {begins : Turn κ → κ → ProposalId → Prop}
  {ends : Turn κ → ProposalId → Prop} {slots : Engine κ → List (κ × ProposalId)}

theorem History.filled (h : History origin turns e) (empty : slots origin = [])
    (turned : ∀ past t, History origin past t.before → ((slots t.before).map Prod.snd).Nodup →
      Turned (begins t) (ends t) (slots t.before) (slots t.after)) : Filled begins ends turns (slots e) := by
  have each : ∀ {turns e}, History origin turns e → ((slots e).map Prod.snd).Nodup ∧
      ∀ caller id, (caller, id) ∈ slots e ↔ Underway (begins · caller id) (ends · id) turns := by
    intro turns e h
    induction h with
    | start => simp [empty, Underway]
    | @step turns e past c i ih =>
      obtain ⟨mem, -, once⟩ := turned turns ⟨e, c, i⟩ past ih.1
      exact ⟨once, fun caller id => (mem caller id).trans (by rw [underway_snoc, ih.2 caller id])⟩
  refine ⟨(each h).2, (each h).1, fun past s run caller id split begun lasts u hu other again => ?_⟩
  obtain ⟨since, later, rfl⟩ := List.append_of_mem hu
  have until_ : History origin (past ++ s :: since) u.before :=
    h.until (show turns = past ++ s :: since ++ u :: later by simp [split])
  have held : (caller, id) ∈ slots u.before :=
    ((each until_).2 caller id).mpr ⟨past, s, since, rfl, begun, fun v hv => lasts v (List.mem_append_left _ hv)⟩
  exact (turned _ u until_ (each until_).1).free other id again _ held rfl

end Spans

/-! ## Turns of rounds -/

theorem mem_resolutions {outputs : List (Output κ)} {id : ProposalId} : id ∈ resolutions outputs ↔
    ∃ action outcome grants denies quorum time,
      .announce (.proposalResolved id action outcome grants denies quorum time) ∈ outputs := by
  simp only [resolutions, List.mem_filterMap]
  constructor
  · rintro ⟨o, ho, resolved⟩
    cases o with
    | announce event =>
      cases event <;> cases resolved
      exact ⟨_, _, _, _, _, _, ho⟩
    | _ => cases resolved
  · rintro ⟨_, _, _, _, _, _, ho⟩
    exact ⟨_, ho, rfl⟩

section Rounds
variable {e : Engine κ} {c : Surroundings} {i : Input κ}

theorem ids_slots (e : Engine κ) : e.slots.map Prod.snd = e.rounds.map Round.id := by
  rw [slots, List.map_map]
  rfl

theorem slots_setRound {r r₀ : Round κ} (once : (e.rounds.map Round.id).Nodup) (held : r₀ ∈ e.rounds)
    (charter : r.charter = r₀.charter) : (e.setRound r).slots = e.slots := by
  have ids := e.ids_setRound r
  have callers := callers_setRound once held charter
  rw [slots, slots, ← List.zip_map', ← List.zip_map']
  exact congrArg₂ List.zip callers ids

/-- The proposal whose round a step takes off. -/
def leaves? (e : Engine κ) (c : Surroundings) (i : Input κ) : Option ProposalId :=
  ((e.closing? c i).map (·.1.id)).or ((e.abandoned? i).map (·.1.id))

/-- A round is given up just when the bus fails its request and its caller is told. -/
theorem failsRequest_iff (t : Turn κ) (id : ProposalId) :
    t.FailsRequest id ↔ (t.before.abandoned? t.input).map (·.1.id) = some id := by
  rw [Option.map_eq_some_iff]
  constructor
  · rintro ⟨f, caller, posted, told⟩
    obtain ⟨e, c, i⟩ := t
    obtain rfl : i = .posted (.proposal id) (.error f) := posted
    change .submitted caller (.error (.transport f)) ∈ (e.requestPosted id (.error f)).2 at told
    obtain eq | ⟨r, found, waits, ⟨failed, -⟩ | ⟨f', same, -⟩⟩ := e.requestPosted_cases id (.error f)
    · rw [eq] at told
      cases told
    · cases failed
    · exact ⟨(r, f), abandoned_of_posting found waits f, id_of_round? found⟩
  · rintro ⟨⟨r, f⟩, gives, rfl⟩
    refine ⟨f, r.caller, (of_abandoned gives).1, ?_⟩
    rw [Turn.outputs, step_of_abandoned gives]
    exact List.mem_singleton_self _

theorem slots_requestPosted (once : (e.rounds.map Round.id).Nodup) (id : ProposalId)
    (ended : Except TransportFault Unit) (stays : e.abandoned? (.posted (.proposal id) ended) = none) :
    (e.requestPosted id ended).1.slots = e.slots := by
  obtain eq | ⟨r, found, waits, ⟨-, eq⟩ | ⟨f, rfl, -⟩⟩ := e.requestPosted_cases id ended
  · rw [eq]
  · rw [eq]
    exact slots_setRound once (List.mem_of_find?_eq_some found) rfl
  · rw [abandoned_of_posting found waits f] at stays
    cases stays

theorem abandoned_of_advanced {r : Round κ} (moved : e.advanced? i = some r) : e.abandoned? i = none := by
  cases i with
  | posted => cases moved
  | _ => rfl

/-- A turn ends the round that its step takes off. -/
theorem endsRound_iff (t : Turn κ) (rounds : (t.before.rounds.map Round.id).Nodup)
    (tickets : (t.before.applications.map (·.ticket)).Nodup) (id : ProposalId) :
    t.EndsRound id ↔ t.before.leaves? t.surroundings t.input = some id := by
  have resolves : t.Resolves id ↔ (t.before.closing? t.surroundings t.input).map (·.1.id) = some id := by
    refine mem_resolutions.symm.trans ?_
    rw [Turn.outputs, (balances_step t.surroundings rounds tickets t.input).resolutions]
    simp
  rw [Turn.EndsRound, resolves, failsRequest_iff, leaves?]
  cases closes : t.before.closing? t.surroundings t.input with
  | none => simp
  | some x => simp [abandoned_of_advanced (of_closing closes).1]

/-- A step that moves no round on and gives none up opens one, or keeps their slots. -/
theorem slots_step_of_still (once : (e.rounds.map Round.id).Nodup) (c : Surroundings) (still : e.advanced? i = none)
    (keeps : e.abandoned? i = none) :
    (∃ caller p, i = .submit caller p ∧ e.taken p.id = false ∧ answered (e.step c i).2 = [] ∧
        (e.step c i).1.slots = e.slots ++ [(caller, p.id)]) ∨
      (∀ caller p, i = .submit caller p → caller ∈ answered (e.step c i).2) ∧ (e.step c i).1.slots = e.slots := by
  obtain same | ⟨v, rfl⟩ | ⟨id, ended, rfl⟩ | ⟨caller, p, rfl, opened⟩ := posture_step_of_still c still
  · have kept : (e.step c i).1.slots = e.slots := congrArg (·.2.map fun r => (r.caller, r.id)) same
    refine .inr ⟨?_, kept⟩
    rintro caller p rfl
    obtain ⟨m, f, eq⟩ | ⟨-, m, eq⟩ := e.submit_cases c caller p
    · simp [step, eq, refuse, Output.answered?]
    · have longer := congrArg (·.2.length) same
      simp [step, eq, posture] at longer
  · refine .inr ⟨by simp, ?_⟩
    simp only [step, vote]
    split
    · next r found => exact slots_setRound once (List.mem_of_find?_eq_some found) (charter_offer r v)
    · rfl
  · exact .inr ⟨by simp, slots_requestPosted once id ended keeps⟩
  · have slots : (e.step c (.submit caller p)).1.slots = e.slots ++ [(caller, p.id)] :=
      (congrArg (·.2.map fun r => (r.caller, r.id)) opened).trans (List.map_append ..)
    obtain ⟨m, f, eq⟩ | ⟨free, m, eq⟩ := e.submit_cases c caller p
    · have longer := congrArg (·.2.length) opened
      simp [step, eq, posture, refuse] at longer
    · exact .inl ⟨caller, p, rfl, free, by simp [step, eq, Output.answered?], slots⟩

/-- What a step does to the rounds: it ends one, gives one up, opens one, or keeps their slots. -/
theorem slots_cases (once : (e.rounds.map Round.id).Nodup) (c : Surroundings) (i : Input κ) :
    (∃ id, e.leaves? c i = some id ∧ (e.step c i).1.slots = e.slots.filter fun s => s.2 ≠ id) ∨
      e.leaves? c i = none ∧
        ((∃ caller p, i = .submit caller p ∧ e.taken p.id = false ∧ answered (e.step c i).2 = [] ∧
            (e.step c i).1.slots = e.slots ++ [(caller, p.id)]) ∨
          (∀ caller p, i = .submit caller p → caller ∈ answered (e.step c i).2) ∧ (e.step c i).1.slots = e.slots) := by
  cases moved : e.advanced? i with
  | some r =>
    have unasked : ∀ caller p, i ≠ .submit caller p := by rintro caller p rfl; cases moved
    obtain ⟨⟨r₀, held, charter⟩, m, eq⟩ := step_of_advanced moved c
    cases known : r.outcome? e.fallback c.now with
    | some o =>
      have closes : e.closing? c i = some (r, o) := by simp [closing?, moved, known]
      refine .inl ⟨r.id, by rw [leaves?, closes]; rfl, ?_⟩
      rw [slots, rounds_step_of_closing closes, slots, List.filter_map]
      rfl
    | none =>
      have stays : e.leaves? c i = none := by simp [leaves?, closing?, moved, known, abandoned_of_advanced moved]
      refine .inr ⟨stays, .inr ⟨fun caller p h => (unasked caller p h).elim, ?_⟩⟩
      rw [eq, advanceRound]
      simp only [known]
      exact slots_setRound once held charter
  | none =>
    have open_ : e.closing? c i = none := by rw [closing?, moved, Option.bind_none]
    cases gives : e.abandoned? i with
    | some given =>
      obtain ⟨r, f⟩ := given
      refine .inl ⟨r.id, by rw [leaves?, open_, gives]; rfl, ?_⟩
      rw [step_of_abandoned gives, refuse, slots, dropRound, slots, List.filter_map]
      rfl
    | none => exact .inr ⟨by rw [leaves?, open_, gives]; rfl, slots_step_of_still once c moved gives⟩

theorem turned_rounds (t : Turn κ) (rounds : (t.before.slots.map Prod.snd).Nodup)
    (tickets : (t.before.applications.map (·.ticket)).Nodup) :
    Turned t.Admits t.EndsRound t.before.slots t.after.slots := by
  have ids : (t.before.rounds.map Round.id).Nodup := t.before.ids_slots ▸ rounds
  have ends := endsRound_iff t ids tickets
  have admits caller id : t.Admits caller id ↔
      (∃ p, t.input = .submit caller p ∧ p.id = id) ∧ caller ∉ answered t.outputs := by
    simp only [Turn.Admits, mem_answered, not_exists]
  obtain ⟨id', leaves, gone⟩ | ⟨stay, ⟨caller, p, asked, free, silent, opened⟩ | ⟨refused, kept⟩⟩ :=
    slots_cases ids t.surroundings t.input
  · have unasked caller id : ¬t.Admits caller id := by
      rintro ⟨⟨p, asked, -⟩, -⟩
      rw [asked] at leaves
      cases leaves
    refine ⟨fun caller id => ?_, fun caller id begun => (unasked caller id begun).elim, ?_⟩
    · rw [Turn.after, gone, ends, leaves]
      simp [unasked, eq_comm (a := id')]
    · rw [Turn.after, gone]
      exact rounds.sublist (List.filter_sublist.map _)
  · have begun caller' id : t.Admits caller' id ↔ (caller', id) = (caller, p.id) := by
      have unanswered : answered t.outputs = [] := silent
      rw [admits, unanswered, asked]
      simp only [Input.submit.injEq, Prod.mk.injEq, List.not_mem_nil, not_false_eq_true, and_true]
      constructor
      · rintro ⟨_, ⟨rfl, rfl⟩, rfl⟩
        exact ⟨rfl, rfl⟩
      · rintro ⟨rfl, rfl⟩
        exact ⟨p, ⟨rfl, rfl⟩, rfl⟩
    have fresh : ∀ s ∈ t.before.slots, s.2 ≠ p.id := by
      rintro s hs same
      obtain ⟨r, hr, rfl⟩ := List.mem_map.mp hs
      have empty : t.before.round? p.id = none := by simpa using (Bool.or_eq_false_iff.mp free).1
      exact List.find?_eq_none.mp empty r hr (by simpa using same)
    refine ⟨fun caller' id => ?_, fun caller' id begun' => ?_, ?_⟩
    · rw [Turn.after, opened, begun, ends, stay]
      simp [or_comm]
    · obtain ⟨-, rfl⟩ := Prod.mk.inj ((begun caller' id).mp begun')
      exact fresh
    · rw [Turn.after, opened, List.map_append]
      refine rounds.append (List.nodup_singleton _) fun id old last => ?_
      obtain ⟨s, hs, rfl⟩ := List.mem_map.mp old
      exact fresh s hs (List.mem_singleton.mp last)
  · have unbegun caller id : ¬t.Admits caller id := by
      rw [admits]
      rintro ⟨⟨p, asked, -⟩, silent⟩
      exact silent (refused caller p asked)
    refine ⟨fun caller id => ?_, fun caller id begun => (unbegun caller id begun).elim, ?_⟩
    · rw [Turn.after, kept, ends, stay]
      simp [unbegun]
    · rwa [Turn.after, kept]

end Rounds

/-! ## Turns of propagations -/

section Propagations
variable {ps ps' : List (Propagation κ)} {asked : Option (κ × ProposalId)}
  {undelivered : Option (ProposalId × TransportFault)} {told : List (κ × Except Fault PropagationReport)}

theorem ids_ackSlots (ps : List (Propagation κ)) : (ps.map Propagation.charter).map Prod.snd = ps.map (·.id) := by
  rw [List.map_map]
  rfl

theorem Passage.turned (h : Passage ps asked undelivered told ps') (once : (ps.map (·.id)).Nodup) :
    Turned (fun caller id => asked = some (caller, id) ∧ ∀ result, (caller, result) ∉ told)
      (fun id => (∃ caller r, (caller, .ok r) ∈ told ∧ r.id = id) ∨
        ∃ f caller, undelivered = some (id, f) ∧ (caller, .error (.transport f)) ∈ told)
      (ps.map Propagation.charter) (ps'.map Propagation.charter) := by
  have ids : ((ps'.map Propagation.charter).map Prod.snd).Nodup := ids_ackSlots ps' ▸ h.once once
  have fresh {p : Propagation κ} (new : ∀ x ∈ ps, x.id ≠ p.id) : ∀ s ∈ ps.map Propagation.charter, s.2 ≠ p.id := by
    intro s hs
    obtain ⟨x, hx, rfl⟩ := List.mem_map.mp hs
    exact new x hx
  have gone (id : ProposalId) : (ps.filter fun x => x.id ≠ id).map Propagation.charter =
      (ps.map Propagation.charter).filter fun s => s.2 ≠ id := by
    rw [List.filter_map]
    rfl
  cases h with
  | idle => exact ⟨by simp, by simp, ids⟩
  | refused caller id f =>
    have unbegun caller' id' : ¬(some (caller, id) = some (caller', id') ∧
        ∀ result, (caller', result) ∉ [(caller, (.error f : Except Fault PropagationReport))]) := by
      rintro ⟨asked, silent⟩
      obtain ⟨rfl, -⟩ := Prod.mk.inj (Option.some.inj asked)
      exact silent _ List.mem_cons_self
    refine ⟨fun caller' id' => ?_, fun caller' id' begun => (unbegun caller' id' begun).elim, ids⟩
    simp only [unbegun, false_or]
    simp
  | opened p new =>
    refine ⟨fun caller id => ?_, fun caller id begun => ?_, ids⟩
    · simp [or_comm, eq_comm]
    · obtain ⟨-, rfl⟩ := Prod.mk.inj (Option.some.inj begun.1)
      exact fresh new
  | moved p p' held charter =>
    rw [charters_moved once held charter] at ids ⊢
    exact ⟨by simp, by simp, ids⟩
  | ended p p' held charter =>
    refine ⟨fun caller id => ?_, by simp, ids⟩
    have reported : (∃ k r, (k, (.ok r : Except Fault PropagationReport)) ∈ [(p'.caller, .ok p'.report)] ∧ r.id = id) ↔
        id = p'.id := by
      constructor
      · rintro ⟨k, r, said, rfl⟩
        cases List.mem_singleton.mp said
        rfl
      · rintro rfl
        exact ⟨_, _, List.mem_cons_self, rfl⟩
    rw [gone, reported]
    simp
  | abandoned p f held =>
    refine ⟨fun caller id => ?_, by simp, ids⟩
    rw [gone]
    simp [eq_comm (a := p.id)]

theorem turned_propagations (t : Turn κ) (once : (t.before.ackSlots.map Prod.snd).Nodup)
    (tickets : (t.before.applications.map (·.ticket)).Nodup) :
    Turned t.Claims t.EndsPropagation t.before.ackSlots t.after.ackSlots := by
  have asks caller id : t.input.propagator? = some (caller, id) ↔
      ∃ action params timeout, t.input = .propagate caller id action params timeout := by
    cases t.input <;> simp [Input.propagator?]
  have fails id f : t.input.undelivered? = some (id, f) ↔ t.input = .posted (.propagation id) (.error f) := by
    cases input : t.input with
    | posted errand ended => cases errand <;> cases ended <;> simp [Input.undelivered?]
    | _ => simp [Input.undelivered?]
  have turned := (passage_step tickets t.surroundings t.input).turned (ids_ackSlots _ ▸ once)
  simp only [asks, fails, mem_deliveries] at turned
  exact turned

end Propagations

/-! ## Calls -/

/-- The submissions made in some turns, in their order, by who has made them. -/
def submitters (turns : List (Turn κ)) : List κ := turns.flatMap fun t => t.input.submitter?.toList

/-- The submissions answered in some turns. -/
def submitted (turns : List (Turn κ)) : List κ := turns.flatMap fun t => answered t.outputs

/-- The propagations asked for in some turns, by who has asked. -/
def propagators (turns : List (Turn κ)) : List κ := turns.flatMap fun t => (t.input.propagator?.map Prod.fst).toList

/-- The propagations answered in some turns. -/
def propagated (turns : List (Turn κ)) : List κ := turns.flatMap fun t => (deliveries t.outputs).map Prod.fst

open scoped List in
/-- If each turn answers what is due and asked for in it or keeps it due, then all that is
asked for has been answered or is due. -/
theorem History.due {α : Type} {origin e : Engine κ} {turns : List (Turn κ)} {asks answers : Turn κ → List α}
    (h : History origin turns e) (due : Engine κ → List α) (idle : due origin = [])
    (each : ∀ past t, History origin past t.before →
      (answers t ++ due t.after).Perm (asks t ++ due t.before)) :
    (turns.flatMap asks).Perm (turns.flatMap answers ++ due e) := by
  induction h with
  | start => simp [idle]
  | @step turns e past c i ih =>
    have turn := each turns ⟨e, c, i⟩ past
    simp only [List.flatMap_append, List.flatMap_singleton]
    calc turns.flatMap asks ++ asks ⟨e, c, i⟩
      _ ~ asks ⟨e, c, i⟩ ++ turns.flatMap asks := List.perm_append_comm
      _ ~ asks ⟨e, c, i⟩ ++ (turns.flatMap answers ++ due e) := ih.append_left _
      _ ~ turns.flatMap answers ++ (asks ⟨e, c, i⟩ ++ due e) := List.perm_append_comm_assoc ..
      _ ~ turns.flatMap answers ++ (answers ⟨e, c, i⟩ ++ due (e.step c i).1) := turn.symm.append_left _
      _ = turns.flatMap answers ++ answers ⟨e, c, i⟩ ++ due (e.step c i).1 := (List.append_assoc ..).symm

/-! ## Routing -/

/-- What a turn does to the slot of its call, and may not do to those of others. -/
structure Turn.Routes (t : Turn κ) : Prop where
  /-- A refused submission leaves every round and every propagation as it is. -/
  refused : ∀ caller p f, t.input = .submit caller p → .submitted caller (.error f) ∈ t.outputs →
    t.after.rounds = t.before.rounds ∧ t.after.propagations = t.before.propagations
  /-- So does a propagation that is refused. -/
  collided : ∀ caller id action params timeout f, t.input = .propagate caller id action params timeout →
    .propagated caller (.error f) ∈ t.outputs →
    t.after.rounds = t.before.rounds ∧ t.after.propagations = t.before.propagations
  /-- A request that the bus does not take frees the slot of its proposal and changes nothing else. -/
  unsent : ∀ id f r, t.input = .posted (.proposal id) (.error f) → t.before.round? id = some r →
    r.progress = .posting → t.outputs = [.submitted r.caller (.error (.transport f))] ∧
    { t.after with rounds := t.before.rounds } = t.before ∧
    ∀ other, t.after.round? other = if other = id then none else t.before.round? other
  /-- So does the message of a propagation. -/
  undelivered : ∀ id f p, t.input = .posted (.propagation id) (.error f) → t.before.propagation? id = some p →
    p.progress = .posting → t.outputs = [.propagated p.caller (.error (.transport f))] ∧
    { t.after with propagations := t.before.propagations } = t.before ∧
    ∀ other, t.after.propagation? other = if other = id then none else t.before.propagation? other
  /-- A vote is counted as late if its proposal has no round. -/
  late : ∀ v, t.input = .vote v → t.before.round? v.id = none → t.outputs = [] ∧
    t.after = { t.before with metrics := { t.before.metrics with lateVotes := t.before.metrics.lateVotes + 1 } }
  /-- A vote is offered to the round of its proposal and changes nothing else. -/
  vote : ∀ v r, t.input = .vote v → t.before.round? v.id = some r → t.outputs = [] ∧
    { t.after with rounds := t.before.rounds } = t.before ∧
    ∀ id, t.after.round? id = if id = v.id then some (r.offer v) else t.before.round? id
  /-- An acknowledgement is lost if its proposal has no propagation. -/
  stray : ∀ a, t.input = .ack a → t.before.propagation? a.id = none → t.outputs = [] ∧ t.after = t.before
  /-- An acknowledgement is offered to the propagation of its proposal and changes nothing else. -/
  ack : ∀ a p, t.input = .ack a → t.before.propagation? a.id = some p → t.outputs = [] ∧
    { t.after with propagations := t.before.propagations } = t.before ∧
    ∀ id, t.after.propagation? id = if id = a.id then some (p.offer a) else t.before.propagation? id

theorem id_of_propagation? {e : Engine κ} {id : ProposalId} {p : Propagation κ} (h : e.propagation? id = some p) :
    p.id = id := by
  simpa using List.find?_some h

theorem propagation?_setPropagation (e : Engine κ) (p : Propagation κ) (id : ProposalId) :
    (e.setPropagation p).propagation? id = (e.propagation? id).map fun x => if x.id = p.id then p else x :=
  find_replace Propagation.id e.propagations p id

theorem Turn.routes (t : Turn κ) : t.Routes := by
  obtain ⟨e, c, i⟩ := t
  constructor
  case refused =>
    rintro caller p f rfl refused
    obtain ⟨m, f, eq⟩ | ⟨-, m, eq⟩ := e.submit_cases c caller p
    · simp only [Turn.after, step, eq]
      exact ⟨rfl, rfl⟩
    · simp only [Turn.outputs, step, eq] at refused
      cases List.mem_singleton.mp refused
  case collided =>
    rintro caller id action params timeout f rfl refused
    obtain ⟨-, same⟩ | ⟨-, same⟩ := e.propagate_cases c caller id action params timeout
    · simp only [Turn.after, step, same]
      exact ⟨rfl, rfl⟩
    · simp only [Turn.outputs, step, same] at refused
      cases List.mem_singleton.mp refused
  case unsent =>
    rintro id f r rfl (found : e.round? id = some r) waits
    simp only [Turn.after, Turn.outputs, step, posted, requestPosted, found, if_pos waits, refuse, true_and]
    refine ⟨rfl, fun other => ?_⟩
    split
    · next mine => exact mine ▸ e.round?_dropRound_self id
    · next apart => exact round?_dropRound_ne (Ne.symm apart) e
  case undelivered =>
    rintro id f p rfl (found : e.propagation? id = some p) waits
    simp only [Turn.after, Turn.outputs, step, posted, propagationPosted, found, if_pos waits, declinePropagation,
      true_and]
    refine ⟨rfl, fun other => ?_⟩
    split
    · next mine => exact mine ▸ Collection.find?_drop_self e.collection id
    · next apart => exact Collection.find?_drop_ne (k := e.collection) apart
  case late =>
    rintro v rfl (none_ : e.round? v.id = none)
    simp only [Turn.after, Turn.outputs, step, vote, none_, and_self]
  case vote =>
    rintro v r rfl (found : e.round? v.id = some r)
    simp only [Turn.after, Turn.outputs, step, vote, found, true_and]
    refine ⟨rfl, fun id => ?_⟩
    have same := id_of_round? found
    split
    · next mine => exact mine ▸ round?_setRound_self found (r.id_offer v ▸ same)
    · next other =>
      rw [round?_setRound]
      cases held : e.round? id with
      | none => rfl
      | some x => simp [id_of_round? held, same, other]
  case stray =>
    rintro a rfl (none_ : e.propagation? a.id = none)
    simp only [Turn.after, Turn.outputs, step, ack, none_, and_self]
  case ack =>
    rintro a p rfl (found : e.propagation? a.id = some p)
    simp only [Turn.after, Turn.outputs, step, ack, found, true_and]
    refine ⟨rfl, fun id => ?_⟩
    have same := id_of_propagation? found
    rw [propagation?_setPropagation]
    split
    · next mine => simp [mine, found]
    · next other =>
      cases held : e.propagation? id with
      | none => rfl
      | some x => simp [id_of_propagation? held, same, other]

/-! ## Histories -/

section Histories
variable {self : AgentId} {settings : ConsensusSettings} {fallback : Bool} {turns : List (Turn κ)} {e : Engine κ}

theorem History.rounds_filled (h : History (create self settings fallback) turns e) :
    Filled (·.Admits) (·.EndsRound) turns e.slots :=
  h.filled rfl fun _ t until_ once => turned_rounds t once until_.kept.tickets

theorem History.propagations_filled (h : History (create self settings fallback) turns e) :
    Filled (·.Claims) (·.EndsPropagation) turns e.ackSlots :=
  h.filled rfl fun _ t until_ once => turned_propagations t once until_.kept.tickets

theorem History.submissions (h : History (create self settings fallback) turns e) :
    (submitters turns).Perm (submitted turns ++ e.owing) :=
  h.due owing rfl fun _ t until_ =>
    (balances_step t.surroundings (t.before.ids_slots ▸ until_.rounds_filled.once) until_.kept.tickets t.input).answers

theorem History.propagations (h : History (create self settings fallback) turns e) :
    (propagators turns).Perm (propagated turns ++ e.propagations.map (·.caller)) :=
  h.due (fun e => e.propagations.map (·.caller)) rfl fun _ t until_ =>
    (passage_step until_.kept.tickets t.surroundings t.input).callers (ids_ackSlots _ ▸ until_.propagations_filled.once)

end Histories

/-- What the slots of a history hold. -/
structure Slots (turns : List (Turn κ)) (e : Engine κ) : Prop where
  rounds : Filled (·.Admits) (·.EndsRound) turns e.slots
  propagations : Filled (·.Claims) (·.EndsPropagation) turns e.ackSlots
  /-- A submission has been answered, or has its round or its application under way. -/
  submissions : (submitters turns).Perm (submitted turns ++ e.owing)
  /-- A propagation has been answered or is under way. -/
  asked : (propagators turns).Perm (propagated turns ++ e.propagations.map (·.caller))
  /-- Where all callers are different, nothing of an answered submission is left. -/
  settled : (submitters turns).Nodup → ∀ caller ∈ submitted turns,
    (∀ r ∈ e.rounds, r.caller ≠ caller) ∧ ∀ a ∈ e.applications, ∀ result, a.purpose ≠ .commit result caller
  /-- So it is with propagations. -/
  reported : (propagators turns).Nodup → ∀ caller ∈ propagated turns, ∀ p ∈ e.propagations, p.caller ≠ caller

/-- A round or a propagation is under way exactly while a call for its id is between the turn
that takes the call up and the turn that ends it, one call at a time, its message with the bus or
out. Every call is answered or under way, one that the bus fails among them, and no turn touches
the slots of others. -/
theorem slots_of_calls {self : AgentId} {settings : ConsensusSettings} {fallback : Bool} {turns : List (Turn κ)}
    {e : Engine κ} (h : History (create self settings fallback) turns e) : Slots turns e ∧ ∀ t ∈ turns, t.Routes := by
  refine ⟨⟨h.rounds_filled, h.propagations_filled, h.submissions, h.propagations, fun once caller told => ?_,
    fun once caller told p held same => ?_⟩, fun t _ => t.routes⟩
  · have apart : caller ∉ e.owing := (List.nodup_append'.mp (h.submissions.nodup once)).2.2 told
    rw [owing, List.mem_append, not_or] at apart
    refine ⟨fun r held same => apart.1 (List.mem_map.mpr ⟨r, held, same⟩), fun a open_ result why => ?_⟩
    exact apart.2 (List.mem_filterMap.mpr ⟨a, open_, by rw [why]; rfl⟩)
  · have apart := (List.nodup_append'.mp (h.propagations.nodup once)).2.2 told
    exact apart (List.mem_map.mpr ⟨p, held, same⟩)

/-- Of two submissions of one proposal, and of two propagations, the second is refused while the
first is with the bus. The bus fails another submission and the propagation, and the first
submission keeps its round. -/
theorem slots_of_collision : ∃ turns e, History (create "A" {} true : Engine Nat) turns e ∧
    (submitters turns = [0, 1, 2] ∧ submitted turns = [1, 2] ∧ e.slots = [(0, petition.id)]) ∧
      (propagators turns = [3, 4] ∧ propagated turns = [4, 3] ∧ e.ackSlots = []) ∧
        Slots turns e ∧ ∀ t ∈ turns, t.Routes := by
  have origin : History (create "A" {} true : Engine Nat) [] _ := .start
  have twice := (origin.step alone (.submit 0 petition)).step alone (.submit 1 petition)
  have other := twice.step alone (.submit 2 { petition with id := .ofNat 2 })
  have failed := (other.step alone (.posted (.proposal (.ofNat 2)) (.error .closed))).step alone
    (.posted (.proposal petition.id) (.ok ()))
  have propagated := (failed.step alone (.propagate 3 petition.id "noop" .null 1000)).step alone
    (.propagate 4 petition.id "noop" .null 1000)
  have lost := propagated.step alone (.posted (.propagation petition.id) (.error .closed))
  exact ⟨_, _, lost, by decide, by decide, slots_of_calls lost⟩

end FleetCoordination.Engine
