import FleetCoordination.Proofs.Engine.Standing
/-!
# Results of submissions

A submission is told the result of a poll: of the agents that were alive when it was made, on
the proposer's own vote and then on the votes that its round was offered, in their order.
-/
namespace FleetCoordination.Engine
variable {κ : Type}

/-! ## Turns of a round -/

namespace Turn
variable (t : Turn κ) (id : ProposalId)

/-- The vote on a proposal that comes in a turn. -/
def offers : List Poll.Vote :=
  match t.input with
  | .vote v => if v.id = id then [v.spoken] else []
  | _ => []

/-- What the evaluator judges of a proposal in a turn, for a round that waits for that. -/
def judges : Option Bool :=
  match t.input with
  | .evaluated (.proposer id') j =>
    if id' = id ∧ (t.before.round? id).map Round.progress = some .working then some j.granted else none
  | _ => none

/-- Whether the inbox of a round is full when a turn comes. -/
def full : Bool := (t.before.round? id).any fun r => decide (r.room ≤ r.inbox.length)

/-- Whether a vote on a proposal is lost in a turn. -/
def Spills : Prop := t.full id = true ∧ t.offers id ≠ []

/-- The vote on a proposal that comes in a turn and is not lost. -/
def takes : List Poll.Vote := if t.full id then [] else t.offers id

/-- Whether a turn ends the round of a proposal. -/
def Closes : Prop := ∃ r o, t.before.closing? t.surroundings t.input = some (r, o) ∧ r.id = id

/-- Whether the round of a proposal is given up in a turn. -/
def Abandons : Prop := ∃ r f, t.before.abandoned? t.input = some (r, f) ∧ r.id = id

/-- The agents that may vote on a proposal submitted in a turn. -/
def voters : Finset AgentId := insert t.before.self t.surroundings.alive.toFinset

/-- How many of them a proposal needs. -/
def quorum (p : Proposal) : Nat := Quorum.size (t.before.settings.fractionFor p.action) t.voters.card

variable {t id}

theorem takes_of_room (room : ¬t.Spills id) : t.takes id = t.offers id := by
  unfold takes
  split
  · next full => exact (Decidable.not_not.mp fun lost => room ⟨full, lost⟩).symm
  · rfl

theorem offers_of_advanced {r : Round κ} (h : t.before.advanced? t.input = some r) : t.offers id = [] := by
  obtain ⟨before, c, i⟩ := t
  cases i with
  | vote => cases h
  | _ => rfl

theorem takes_of_silent (silent : t.offers id = []) : t.takes id = [] := by
  simp [takes, silent]

/-- What a turn brings to a round, the round takes. -/
theorem polling {voters : Finset AgentId} {quorum : Nat} {own : Option Bool} {votes : List Poll.Vote} {r : Round κ}
    (h : r.Polling voters quorum t.before.self own votes) (found : t.before.round? r.id = some r)
    (undecided : r.decided? = none) :
    (r.after t.before.self t.input).Polling voters quorum t.before.self (own.or (t.judges r.id))
      (votes ++ t.takes r.id) := by
  have kept (silent : t.offers r.id = []) (unjudged : own.or (t.judges r.id) = own) :
      r.Polling voters quorum t.before.self (own.or (t.judges r.id)) (votes ++ t.takes r.id) := by
    rw [unjudged, takes_of_silent silent, List.append_nil]
    exact h
  obtain ⟨before, c, i⟩ := t
  cases i with
  | vote v =>
    by_cases mine : v.id = r.id
    · have taken : (Turn.mk before c (.vote v)).takes r.id = if r.inbox.length < r.room then [v.spoken] else [] := by
        have full : (Turn.mk before c (.vote v)).full r.id = decide (r.room ≤ r.inbox.length) := by simp [full, found]
        by_cases room : r.inbox.length < r.room
        · simp [takes, offers, mine, full, room, Nat.not_le.mpr room]
        · simp [takes, full, room, Nat.not_lt.mp room]
      rw [taken, Round.after, if_pos mine, judges, Option.or_none]
      exact h.offer v
    · rw [Round.after, if_neg mine]
      exact kept (if_neg mine) (Option.or_none)
  | evaluated seat j =>
    cases seat with
    | peer => exact kept rfl (Option.or_none)
    | proposer id =>
      have progress : (before.round? r.id).map Round.progress = some .working ↔ r.progress = .working := by
        rw [show before.round? r.id = some r from found]
        exact Option.some_inj
      by_cases first : id = r.id ∧ r.progress = .working
      · obtain ⟨rfl, works⟩ := first
        obtain rfl : own = none := h.own_eq.symm.trans (congrArg Progress.own works)
        have silent : (Turn.mk before c (.evaluated (.proposer r.id) j)).takes r.id = [] := takes_of_silent rfl
        have judgement : (Turn.mk before c (.evaluated (.proposer r.id) j)).judges r.id = some j.granted :=
          if_pos ⟨rfl, progress.mpr works⟩
        rw [Round.after, if_pos ⟨rfl, works⟩, silent, List.append_nil, judgement]
        exact h.castOwn j.granted
      · have unjudged : (Turn.mk before c (.evaluated (.proposer id) j)).judges r.id = none :=
          if_neg fun judged => first ⟨judged.1, progress.mp judged.2⟩
        rw [Round.after, if_neg first]
        exact kept rfl (unjudged ▸ Option.or_none)
  | posted errand ended =>
    cases errand with
    | propagation => exact kept rfl Option.or_none
    | proposal id =>
      cases ended with
      | error => exact kept rfl Option.or_none
      | ok =>
        by_cases first : id = r.id ∧ r.progress = .posting
        · obtain ⟨rfl, waits⟩ := first
          obtain rfl : own = none := h.own_eq.symm.trans (congrArg Progress.own waits)
          have silent : (Turn.mk before c (.posted (.proposal r.id) (.ok ()))).takes r.id = [] := takes_of_silent rfl
          rw [Round.after, if_pos ⟨rfl, waits⟩, silent, List.append_nil]
          exact h.sent
        · rw [Round.after, if_neg first]
          exact kept rfl Option.or_none
  | readVote id =>
    by_cases cast : id = r.id ∧ r.own.isSome = true
    · obtain ⟨rfl, cast⟩ := cast
      have silent : (Turn.mk before c (.readVote r.id)).takes r.id = [] := takes_of_silent rfl
      rw [Round.after, if_pos ⟨rfl, cast⟩, silent, List.append_nil, judges, Option.or_none]
      cases next : r.read? with
      | none => exact h
      | some x => exact h.read undecided (h.own_eq ▸ cast) next
    · rw [Round.after, if_neg cast]
      exact kept rfl (Option.or_none)
  | submit | propagate | request | approval | delivery | ack | apply | executed | readAck =>
    exact kept rfl (Option.or_none)

end Turn

/-- The votes on a proposal that come in some turns. -/
def offers (turns : List (Turn κ)) (id : ProposalId) : List Poll.Vote := turns.flatMap (·.offers id)

/-- Those that are not lost. -/
def takes (turns : List (Turn κ)) (id : ProposalId) : List Poll.Vote := turns.flatMap (·.takes id)

/-- The first judgement of a proposal in some turns. -/
def judged (turns : List (Turn κ)) (id : ProposalId) : Option Bool := turns.findSome? (·.judges id)

section Turns
variable (turns : List (Turn κ)) (t : Turn κ) (id : ProposalId)

@[simp] theorem takes_snoc : takes (turns ++ [t]) id = takes turns id ++ t.takes id := by simp [takes]

@[simp] theorem judged_snoc : judged (turns ++ [t]) id = (judged turns id).or (t.judges id) := by
  simp [judged, List.findSome?_append]

theorem takes_eq_offers {turns : List (Turn κ)} {id : ProposalId} (room : ∀ t ∈ turns, ¬t.Spills id) :
    takes turns id = offers turns id := by
  induction turns with
  | nil => rfl
  | cons t rest ih =>
    obtain ⟨first, later⟩ := List.forall_mem_cons.mp room
    exact congrArg₂ (· ++ ·) (Turn.takes_of_room first) (ih later)

end Turns

/-! ## Rounds that stand -/

/-- What is known of a round in the turns since the one that opened it. -/
structure Stands (s : Turn κ) (run : List (Turn κ)) (r : Round κ) : Prop where
  asked : s.input = .submit r.caller r.proposal
  new : s.before.round? r.id = none
  opens : s.after.round? r.id = some (s.before.opening s.surroundings r.caller r.proposal)
  deadline : r.deadline = s.surroundings.now + r.proposal.timeout
  polling : r.Polling s.voters (s.quorum r.proposal) s.before.self (judged run r.id) (takes run r.id)

theorem holds_opening (s : Turn κ) (caller : κ) (p : Proposal) :
    (s.before.opening s.surroundings caller p).ballot.Holds s.voters (s.quorum p) [] := by
  have voters : (s.before.electorate s.surroundings).toFinset = s.voters := by
    ext a
    simp [electorate, Turn.voters]
  have card : s.voters.card = (s.before.electorate s.surroundings).length := by
    have once : (s.before.electorate s.surroundings).Nodup := Text.nodup_sorted _
    rw [← voters, List.toFinset_card_of_nodup once]
  have proper : (s.before.opening s.surroundings caller p).ballot.Proper :=
    ⟨List.nodup_nil, by simp [Engine.opening, Ballot.open_, Ballot.voters]⟩
  refine ⟨proper, Text.nodup_sorted _, ?_, ?_, fun _ _ => rfl⟩
  · rw [← voters]
    ext a
    simp [Engine.opening, Ballot.open_]
  · rw [Turn.quorum, card]
    rfl

namespace Stands
variable {s t : Turn κ} {run : List (Turn κ)} {r : Round κ}

theorem opening {caller : κ} {p : Proposal} (asked : s.input = .submit caller p)
    (new : s.before.round? p.id = none)
    (opens : s.after.round? p.id = some (s.before.opening s.surroundings caller p)) :
    Stands s [] (s.before.opening s.surroundings caller p) :=
  ⟨asked, new, opens, rfl, .waiting rfl (holds_opening s caller p)⟩

theorem turn (h : Stands s run r) (same : t.before.self = s.before.self) (found : t.before.round? r.id = some r)
    (undecided : r.decided? = none) : Stands s (run ++ [t]) (r.after t.before.self t.input) := by
  have charter := r.charter_after t.before.self t.input
  simp only [Round.charter, Prod.mk.injEq] at charter
  obtain ⟨caller, proposal, -⟩ := charter
  have polling := Turn.polling (same ▸ h.polling) found undecided
  rw [same] at polling
  refine ⟨by rw [caller, proposal, h.asked], by rw [Round.id_after, h.new], ?_, ?_, ?_⟩
  · rw [Round.id_after, caller, proposal, h.opens]
  · rw [Round.deadline_after, proposal, h.deadline]
  · rw [Round.id_after, proposal, takes_snoc, judged_snoc, same]
    exact polling

end Stands

section History
variable {origin e : Engine κ} {turns : List (Turn κ)} {c : Surroundings} {i : Input κ} {id : ProposalId} {r : Round κ}

theorem History.bearing_eq (h : History origin turns e) : e.bearing = origin.bearing := by
  induction h with
  | start => rfl
  | step past c i ih => exact (bearing_step c _ i).trans ih

/-- A round that is there has stood since some turn and waits for more votes. -/
theorem History.standing (h : History origin turns e) (empty : origin.rounds = []) (found : e.round? id = some r) :
    r.decided? = none ∧
      ∃ before s run, turns = before ++ s :: run ∧ (∀ u ∈ run, ¬u.Closes id ∧ ¬u.Abandons id) ∧ Stands s run r := by
  induction h generalizing r with
  | start => simp [round?, empty] at found
  | @step turns e past c i ih =>
    cases old : e.round? id with
    | none =>
      obtain ⟨caller, p, rfl, rfl, rfl⟩ := opening_of_new old found
      exact ⟨Round.decided_of_waiting rfl, turns, _, [], rfl, by simp, .opening rfl old found⟩
    | some r₀ =>
      obtain ⟨undecided, before, s, run, rfl, runs, stands⟩ := ih old
      obtain rfl := id_of_round? old
      obtain ⟨o, closes⟩ | ⟨f, gives⟩ | ⟨kept, other, still⟩ := round?_step old c i
      · have gone := round?_step_of_closing closes
        rw [Round.id_after, found] at gone
        cases gone
      · have gone := round?_step_of_abandoned gives c
        rw [found] at gone
        cases gone
      · obtain rfl := Option.some.inj (found.symm.trans kept)
        have same : e.self = s.before.self :=
          congrArg Prod.fst (past.bearing_eq.trans (past.until rfl).bearing_eq.symm)
        refine ⟨still undecided, before, s, run ++ [⟨e, c, i⟩], by simp, fun u hu => ?_,
          stands.turn (t := ⟨e, c, i⟩) same old undecided⟩
        rcases List.mem_append.mp hu with earlier | last
        · exact runs u earlier
        · rw [List.mem_singleton.mp last]
          constructor
          · rintro ⟨r', o, closes, same⟩
            exact other _ closes same
          · rintro ⟨r', f, gives, same⟩
            have gone := round?_step_of_abandoned gives c
            rw [same, found] at gone
            cases gone

end History

/-! ## Results -/

/-- How a submission has come to its result: it has opened a round in turn `s`, the round has
stood in the turns `run`, and turn `t` has ended it. -/
structure Resolved (fallback : Bool) (s : Turn κ) (run : List (Turn κ)) (t : Turn κ) (caller : κ) (p : Proposal)
    (result : ProposalResult) : Prop where
  asked : s.input = .submit caller p
  new : s.before.round? p.id = none
  opens : s.after.round? p.id = some (s.before.opening s.surroundings caller p)
  runs : ∀ u ∈ run, ¬u.Closes p.id ∧ ¬u.Abandons p.id
  closes : t.Closes p.id
  /-- If no vote was lost, the result is that of a poll on all votes that have come. -/
  polled : (∀ u ∈ run, ¬u.Spills p.id) → ∃ own, judged (run ++ [t]) p.id = some own ∧
    result = Poll.result s.voters (s.quorum p) p.id fallback (s.before.self, own) (offers run p.id)
  approved : result.outcome = .approved ↔ result.quorum ≤ result.grants
  denied : result.outcome = .denied ↔ result.grants < result.quorum ∧ result.alive - result.denies < result.quorum
  /-- A round without a verdict is not ended before its time. -/
  late : result.outcome = .approved ∨ result.outcome = .denied ∨ s.surroundings.now + p.timeout ≤ t.surroundings.now

/-- Whether a submission has come to a result in some turns. -/
def Settled (fallback : Bool) (turns : List (Turn κ)) (caller : κ) (result : ProposalResult) : Prop :=
  ∃ before s run t after p, turns = before ++ s :: (run ++ t :: after) ∧ Resolved fallback s run t caller p result

theorem Settled.snoc {fallback : Bool} {turns : List (Turn κ)} {caller : κ} {result : ProposalResult}
    (h : Settled fallback turns caller result) (u : Turn κ) : Settled fallback (turns ++ [u]) caller result := by
  obtain ⟨before, s, run, t, after, p, rfl, resolved⟩ := h
  exact ⟨before, s, run, t, after ++ [u], p, by simp, resolved⟩

theorem Stands.resolved {s t : Turn κ} {run : List (Turn κ)} {r : Round κ} {o : Outcome}
    (ended : Stands s (run ++ [t]) r) (closes : t.before.closing? t.surroundings t.input = some (r, o))
    (runs : ∀ u ∈ run, ¬u.Closes r.id ∧ ¬u.Abandons r.id) :
    Resolved t.before.fallback s run t r.caller r.proposal (r.result o) := by
  obtain ⟨moved, known⟩ := of_closing closes
  obtain ⟨own, judged, result⟩ := ended.polling.result known
  rw [takes_snoc, Turn.takes_of_silent (Turn.offers_of_advanced moved), List.append_nil] at result
  have counts := Poll.result_iff s.voters (s.quorum r.proposal) r.id t.before.fallback (s.before.self, own)
    (takes run r.id)
  rw [← result] at counts
  refine ⟨ended.asked, ended.new, ended.opens, runs, ⟨r, o, closes, rfl⟩, fun room => ⟨own, judged, ?_⟩, counts.1,
    counts.2, ended.deadline ▸ Round.late_of_outcome known⟩
  have all : takes run r.id = offers run r.id := takes_eq_offers room
  rw [result, all]
  rfl

section Settled
variable {origin e : Engine κ} {turns : List (Turn κ)} {c : Surroundings} {i : Input κ} {r : Round κ} {o : Outcome}

/-- A round that is ended settles the submission that has opened it. -/
theorem History.settled_of_closing (h : History origin turns e) (empty : origin.rounds = [])
    (closes : e.closing? c i = some (r, o)) :
    Settled origin.fallback (turns ++ [⟨e, c, i⟩]) r.caller (r.result o) := by
  obtain ⟨r₀, -, found, rfl⟩ := of_advanced (of_closing closes).1
  obtain ⟨undecided, before, s, run, rfl, runs, stands⟩ := h.standing empty found
  have fallback : e.fallback = origin.fallback := congrArg Prod.snd h.bearing_eq
  have same : e.self = s.before.self := congrArg Prod.fst (h.bearing_eq.trans (h.until rfl).bearing_eq.symm)
  have ended := stands.turn (t := ⟨e, c, i⟩) same found undecided
  have resolved := ended.resolved closes (r₀.id_after e.self i ▸ runs)
  exact ⟨before, s, run, ⟨e, c, i⟩, [], _, by simp, fallback ▸ resolved⟩

theorem Owes.snoc {fallback : Bool} (h : Owes (Settled fallback turns) e) (t : Turn κ) :
    Owes (Settled fallback (turns ++ [t])) e :=
  fun a ha result caller commit => (h a ha result caller commit).snoc t

/-- An engine owes and tells only results to which submissions have come by then. -/
theorem History.answers (h : History origin turns e) (empty : origin.rounds = [])
    (owes : Owes (Settled origin.fallback turns) e) (c : Surroundings) (i : Input κ) :
    Answers (Settled origin.fallback (turns ++ [⟨e, c, i⟩])) (e.step c i) :=
  (owes.snoc ⟨e, c, i⟩).step fun _ _ closes => h.settled_of_closing empty closes

theorem History.owes (h : History origin turns e) (empty : origin.rounds = []) (idle : origin.applications = []) :
    Owes (Settled origin.fallback turns) e := by
  induction h with
  | start => simp [Owes, idle]
  | step past c i ih => exact (past.answers empty ih c i).owes

end Settled

/-! ## Answers in time -/

/-- Whether a submission is told a result, or that its application has failed. -/
def Told (caller : κ) (result : ProposalResult) (outputs : List (Output κ)) : Prop :=
  .submitted caller (.ok result) ∈ outputs ∨ ∃ cause, .submitted caller (.error (.execution cause)) ∈ outputs

/-- Whether a submission is told a result in a step, or is to be when an application ends. -/
def Answered (caller : κ) (result : ProposalResult) (s : Step κ) : Prop :=
  Told caller result s.2 ∨ ∃ a ∈ s.1.applications, a.purpose = .commit result caller

section Told
variable {e : Engine κ} {caller : κ} {result : ProposalResult} {outputs : List (Output κ)}

theorem Told.mono (h : Told caller result outputs) {more : List (Output κ)} (sub : outputs ⊆ more) :
    Told caller result more :=
  h.imp (fun told => sub told) fun ⟨cause, told⟩ => ⟨cause, sub told⟩

theorem Answered.mono {s s' : Step κ} (h : Answered caller result s) (same : s'.1 = s.1) (sub : s.2 ⊆ s'.2) :
    Answered caller result s' :=
  h.imp (fun told => told.mono sub) fun owed => same ▸ owed

theorem told_settle (e : Engine κ) (c : Surroundings) (id : ProposalId) (ended : Except ExecutionFault Bool) :
    Told caller result (e.settle c id (.commit result caller) (ended.mapError .execution)).2 := by
  cases ended with
  | ok => exact .inl (by simp [settle, Except.mapError, Except.map])
  | error cause => exact .inr ⟨cause, by simp [settle, Except.mapError, Except.map]⟩

theorem answered_apply (e : Engine κ) (c : Surroundings) (id : ProposalId) (action : String) (params : Json) :
    Answered caller result (e.apply c id action params (.commit result caller)) := by
  unfold apply
  dsimp only
  split
  · next earlier _ =>
    have known : (earlier.mapError Fault.execution).map (fun _ => false) =
        (earlier.map fun _ => false).mapError Fault.execution := by cases earlier <;> rfl
    rw [known]
    exact .inl (told_settle ..)
  · exact .inl (.inl (by simp [settle, Except.map]))
  · next cause _ => exact .inl (told_settle _ c id (.error cause))
  · exact .inr ⟨_, List.mem_append_right _ (List.mem_singleton_self _), rfl⟩

theorem answered_closeRound (e : Engine κ) (c : Surroundings) (r : Round κ) (o : Outcome) :
    Answered r.caller (r.result o) (e.closeRound c r o) := by
  unfold closeRound
  dsimp only
  split
  · refine (answered_apply (e.endRound r o) c r.id r.proposal.action r.proposal.params).mono rfl ?_
    exact List.subset_cons_of_subset _ (List.subset_append_right ..)
  · exact .inl (.inl (by simp))

/-- A ticket belongs to one application. -/
theorem find_ticket {applications : List (Application κ)} (once : (applications.map (·.ticket)).Nodup)
    {a : Application κ} (held : a ∈ applications) :
    applications.find? (fun a' => a'.ticket = a.ticket) = some a := by
  cases first : applications.find? (fun a' => a'.ticket = a.ticket) with
  | none => exact (List.find?_eq_none.mp first a held (decide_eq_true rfl)).elim
  | some a' =>
    have same : a'.ticket = a.ticket := by simpa using List.find?_some first
    rw [List.inj_on_of_nodup_map once (List.mem_of_find?_eq_some first) held same]

theorem told_executed (once : (e.applications.map (·.ticket)).Nodup) {a : Application κ} (held : a ∈ e.applications)
    (commit : a.purpose = .commit result caller) (c : Surroundings) (ended : Except ExecutionFault Unit) :
    Told caller result (e.executed c a.ticket ended).2 := by
  have found := find_ticket once held
  simp only [executed, found]
  cases ended with
  | ok =>
    rw [commit]
    exact (told_settle _ c a.id (.ok true)).mono (List.subset_cons_self ..)
  | error cause =>
    rw [commit]
    exact told_settle _ c a.id (.error cause)

end Told

section InTime
variable {origin e e' e'' : Engine κ} {turns more : List (Turn κ)} {c : Surroundings} {id : ProposalId} {r : Round κ}

theorem History.append (h : History origin turns e) (h' : History e more e') : History origin (turns ++ more) e' := by
  induction h' with
  | start => simpa using h
  | step past c i ih =>
    rw [← List.append_assoc]
    exact ih.step c i

/-- Reads come to the one that ends a round that is out of time. -/
theorem closing_in_time (found : e.round? id = some r) (cast : r.own.isSome = true) (late : r.deadline ≤ c.now) :
    ∃ more e' r' o, History e more e' ∧ (∀ u ∈ more, u.surroundings = c ∧ u.input = .readVote id) ∧
      e'.closing? c (.readVote id) = some (r', o) ∧ r'.caller = r.caller := by
  -- each read that does not end the round takes a vote out of its inbox
  generalize votes : r.inbox = inbox
  induction inbox generalizing e r with
  | nil =>
    obtain ⟨o, known⟩ := Round.outcome_of_late cast votes late e.fallback
    have closes : e.closing? c (.readVote id) = some (r, o) := by
      simp [closing?, advanced?, found, cast, Round.read?, votes, known]
    exact ⟨[], e, r, o, .start, by simp, closes, rfl⟩
  | cons v rest ih =>
    obtain rfl := id_of_round? found
    have charter := r.charter_after e.self (.readVote r.id)
    simp only [Round.charter, Prod.mk.injEq] at charter
    obtain ⟨o, closes⟩ | ⟨f, gives⟩ | ⟨kept, -⟩ := round?_step found c (.readVote r.id)
    · exact ⟨[], e, _, o, .start, by simp, closes, charter.1⟩
    · cases gives
    · have next : r.after e.self (.readVote r.id) =
          { r with inbox := rest, ballot := r.ballot.record v.voter v.granted } := by
        simp [Round.after, cast, Round.read?, votes]
      rw [next] at kept
      obtain ⟨more, e', r', o, past, reads, closes, caller⟩ := ih kept cast late rfl
      have first : History e [⟨e, c, .readVote r.id⟩] (e.step c (.readVote r.id)).1 := .step .start c _
      exact ⟨_, e', r', o, first.append past, by simpa using reads, closes, caller⟩

/-- A submission whose round is out of time is answered once its votes are read and, if they
come to a commit, the executor has ended. -/
theorem History.answered_in_time {self : AgentId} {settings : ConsensusSettings} {fallback : Bool}
    (h : History (create self settings fallback) turns e) (found : e.round? id = some r) (cast : r.own.isSome = true)
    (late : r.deadline ≤ c.now) (ended : Except ExecutionFault Unit) :
    ∃ more e', History e more e' ∧
      (∀ u ∈ more, u.surroundings = c ∧ (u.input = .readVote id ∨ ∃ ticket, u.input = .executed ticket ended)) ∧
      ∃ u ∈ more, ∃ result, Told r.caller result u.outputs := by
  obtain ⟨more, e', r', o, past, reads, closes, caller⟩ := closing_in_time found cast late
  have past' := past.step c (.readVote id)
  obtain ⟨-, m, eq⟩ := step_of_closing closes
  have answered := answered_closeRound { e' with metrics := m } c r' o
  rw [← eq, caller] at answered
  have read (u : Turn κ) (hu : u ∈ more ++ [⟨e', c, .readVote id⟩]) : u.surroundings = c ∧ u.input = .readVote id := by
    rcases List.mem_append.mp hu with earlier | last
    · exact reads u earlier
    · rw [List.mem_singleton.mp last]
      exact ⟨rfl, rfl⟩
  obtain told | ⟨a, held, commit⟩ := answered
  · exact ⟨_, _, past', fun u hu => ⟨(read u hu).1, .inl (read u hu).2⟩, ⟨e', c, .readVote id⟩, by simp,
      r'.result o, told⟩
  · have once := (h.append past').kept.tickets
    have told := told_executed once held commit c ended
    refine ⟨_, _, past'.step c (.executed a.ticket ended), fun u hu => ?_, ⟨_, c, .executed a.ticket ended⟩,
      List.mem_append_right _ (List.mem_singleton_self _), r'.result o, told⟩
    rcases List.mem_append.mp hu with earlier | last
    · exact ⟨(read u earlier).1, .inl (read u earlier).2⟩
    · rw [List.mem_singleton.mp last]
      exact ⟨rfl, .inr ⟨a.ticket, rfl⟩⟩

end InTime

/-! ## Outcomes -/

/-- A submission is told the result of the poll of its voters; and it is told, once its proposer
has voted, when time is up. -/
theorem round_outcome {self : AgentId} {settings : ConsensusSettings} {fallback : Bool} {turns : List (Turn κ)}
    {e : Engine κ} (h : History (create self settings fallback) turns e) :
    (∀ past u later, turns = past ++ u :: later → ∀ caller result, .submitted caller (.ok result) ∈ u.outputs →
        Settled fallback (past ++ [u]) caller result) ∧
      ∀ id r c ended, e.round? id = some r → r.own.isSome = true → r.deadline ≤ c.now →
        ∃ more e', History e more e' ∧
          (∀ u ∈ more, u.surroundings = c ∧ (u.input = .readVote id ∨ ∃ ticket, u.input = .executed ticket ended)) ∧
          ∃ u ∈ more, ∃ result, Told r.caller result u.outputs := by
  refine ⟨fun past u later split caller result told => ?_, fun id r c ended found cast late =>
    h.answered_in_time found cast late ended⟩
  have before := h.until split
  exact (before.answers rfl (before.owes rfl rfl) u.surroundings u.input).told caller result told

/-- A leader without peers. -/
def alone : Surroundings := { leadership := .fixed "A" (some "A") 1, alive := ["A"] }

def petition : Proposal := { id := .ofNat 1, action := "noop", params := .null, timeout := 1000 }

/-- The leader of four agents. -/
def amongFour (now : Nat) : Surroundings :=
  { leadership := .fixed "A" (some "A") 1, alive := ["A", "B", "C", "D"], now }

/-- A vote on the petition that comes. -/
def spoken (voter : AgentId) (granted : Bool) : Input Unit :=
  .vote { id := petition.id, voter, granted, reason := none }

/-- The leader of four once it has submitted the petition. -/
def petitioned (quorum : Nat) : Engine Unit :=
  let ballot := Ballot.open_ ["A", "B", "C", "D"] quorum
  { create "A" {} true with
    rounds := [{ caller := (), proposal := petition, term := 1, ballot, deadline := 1000 }]
    metrics := { proposals := 1 } }

theorem petitioned_eq :
    ((create "A" {} true : Engine Unit).step (amongFour 0) (.submit () petition)).1 = petitioned 3 := by
  -- a share is a float, which only the kernel computes
  have quorum : Quorum.size (2.0 / 3.0 : Float) 4 = 3 := by decide +kernel
  exact Eq.trans (show _ = petitioned (Quorum.size (2.0 / 3.0) 4) from rfl) (congrArg petitioned quorum)

/-- What becomes of the petition: of four two grant it in time and one denies it. -/
def carried : ProposalResult :=
  { id := petition.id, outcome := .fallbackApproved, grants := 2, denies := 1, quorum := 3, alive := 4 }

/-- A vote comes before the request is out and is contradicted afterwards, a stranger grants, and the
last of the four is silent. When time is up the leader follows its own vote. -/
theorem round_outcome_fallback :
    (∃ past u e, History (create "A" {} true : Engine Unit) (past ++ [u]) e ∧
      (offers past petition.id = [("B", true), ("B", false), ("E", true), ("C", false)] ∧
        judged past petition.id = some true) ∧
      .submitted () (.ok carried) ∈ u.outputs ∧ Settled true (past ++ [u]) () carried) ∧
    ∃ past e more e', History (create "A" {} true : Engine Unit) past e ∧ (e.round? petition.id).isSome = true ∧
      History e more e' ∧ ∃ u ∈ more, ∃ result, Told () result u.outputs := by
  have origin : History (create "A" {} true : Engine Unit) [] (create "A" {} true) := .start
  have asked := origin.step (amongFour 0) (.submit () petition)
  rw [petitioned_eq] at asked
  have early := asked.step (amongFour 1) (spoken "B" true)
  have cast := (early.step (amongFour 2) (.posted (.proposal petition.id) (.ok ()))).step (amongFour 3)
    (.evaluated (.proposer petition.id) .grant)
  have heard := ((cast.step (amongFour 4) (spoken "B" false)).step (amongFour 5) (spoken "E" true)).step
    (amongFour 6) (spoken "C" false)
  have read := (((heard.step (amongFour 7) (.readVote petition.id)).step (amongFour 7) (.readVote petition.id)).step
    (amongFour 7) (.readVote petition.id)).step (amongFour 7) (.readVote petition.id)
  have late := read.step (amongFour 1000) (.readVote petition.id)
  have ended := late.step (amongFour 1001) (.executed 0 (.ok ()))
  constructor
  · refine ⟨_, _, _, ended, ⟨by decide, by decide⟩, .tail _ (.head _), ?_⟩
    exact (round_outcome ended).1 _ _ [] rfl () carried (.tail _ (.head _))
  · obtain ⟨more, e', past, -, u, hu, told⟩ :=
      (round_outcome read).2 petition.id _ (amongFour 1000) (.ok ()) rfl rfl (Nat.le_refl 1000)
    exact ⟨_, _, more, e', read, rfl, past, u, hu, told⟩

end FleetCoordination.Engine
