import FleetCoordination.Proofs.Ballot
import FleetCoordination.Round
/-!
# Polls

What a proposal comes to when votes are read one after the other: the first vote of each
voter counts, and the reading ends as soon as the outcome is certain. A round polls its
inbox so, from the proposer's own vote on.
-/
namespace FleetCoordination

/-! ## The outcome of a poll -/

namespace Poll

/-- A voter with what it says. -/
abbrev Vote := AgentId × Bool

section Reading
variable (voters : Finset AgentId) (quorum : Nat)

/-- How many voters have said so first. -/
def count (votes : List Vote) (granted : Bool) : Nat := (voters.filter fun a => votes.lookup a = some granted).card

def grants (votes : List Vote) : Nat := count voters votes true
def denies (votes : List Vote) : Nat := count voters votes false

/-- What votes decide: an approval, or that there is none to be had any more. -/
def verdict? (votes : List Vote) : Option Outcome :=
  if quorum ≤ grants voters votes then some .approved
  else if voters.card - denies voters votes < quorum then some .denied
  else none

/-- Reads votes after those that were heard until they are decisive. Gives the outcome, which is
`late` if they never are, with the votes that were heard for it. -/
def read (late : Outcome) (heard : List Vote) : List Vote → Outcome × List Vote
  | [] => ((verdict? voters quorum heard).getD late, heard)
  | v :: rest =>
    match verdict? voters quorum heard with
    | some o => (o, heard)
    | none => read late (heard ++ [v]) rest

/-- What a poll comes to without a verdict: with the fallback on, what its proposer says. -/
def late (fallback : Bool) (own : Vote) : Outcome := if fallback ∧ own.2 then .fallbackApproved else .timedOut

/-- The result of a poll of the proposer's own vote and then of others. -/
def result (id : ProposalId) (fallback : Bool) (own : Vote) (votes : List Vote) : ProposalResult :=
  let (outcome, heard) := read voters quorum (late fallback own) [own] votes
  { id, outcome, grants := grants voters heard, denies := denies voters heard, quorum, alive := voters.card }

end Reading

section Verdict
variable {voters : Finset AgentId} {quorum : Nat} {heard votes : List Vote} {o end_ : Outcome}

theorem read_of_verdict (h : verdict? voters quorum heard = some o) (end_ : Outcome) (votes : List Vote) :
    read voters quorum end_ heard votes = (o, heard) := by
  cases votes <;> simp [read, h]

theorem read_of_open (h : verdict? voters quorum heard = none) (end_ : Outcome) (v : Vote) (votes : List Vote) :
    read voters quorum end_ heard (v :: votes) = read voters quorum end_ (heard ++ [v]) votes := by
  simp [read, h]

/-- A poll ends with a verdict or late. -/
theorem read_cases (voters : Finset AgentId) (quorum : Nat) (end_ : Outcome) (heard votes : List Vote) :
    let (o, all) := read voters quorum end_ heard votes
    verdict? voters quorum all = some o ∨ verdict? voters quorum all = none ∧ o = end_ := by
  induction votes generalizing heard with
  | nil =>
    cases known : verdict? voters quorum heard with
    | some o => exact .inl (by simp [known])
    | none => exact .inr (by simp [known])
  | cons v rest ih =>
    cases known : verdict? voters quorum heard with
    | some o =>
      rw [read_of_verdict known]
      exact .inl known
    | none =>
      rw [read_of_open known]
      exact ih _

theorem late_cases (fallback : Bool) (own : Vote) :
    late fallback own = .fallbackApproved ∨ late fallback own = .timedOut := by
  unfold late
  split
  · exact .inl rfl
  · exact .inr rfl

/-- The counts of a result tell whether it is an approval or a denial. -/
theorem result_iff (voters : Finset AgentId) (quorum : Nat) (id : ProposalId) (fallback : Bool) (own : Vote)
    (votes : List Vote) :
    let r := result voters quorum id fallback own votes
    (r.outcome = .approved ↔ r.quorum ≤ r.grants) ∧
      (r.outcome = .denied ↔ r.grants < r.quorum ∧ r.alive - r.denies < r.quorum) := by
  have ends := read_cases voters quorum (late fallback own) [own] votes
  dsimp only [result]
  revert ends
  generalize read voters quorum (late fallback own) [own] votes = x
  obtain ⟨o, heard⟩ := x
  rintro (verdict | ⟨verdict, rfl⟩)
  · grind [verdict?]
  · have := late_cases fallback own
    grind [verdict?]

end Verdict

end Poll

/-! ## Ballots -/

namespace Ballot
variable {b : Ballot} {voters : Finset AgentId} {quorum : Nat} {votes : List Poll.Vote} {voter : AgentId}
  {granted : Bool}

theorem Proper.vote?_eq_some (h : b.Proper) : b.vote? voter = some granted ↔ (voter, granted) ∈ b.votes := by
  refine ⟨fun cast => ?_, fun cast => ?_⟩
  · obtain ⟨before, after, split, -⟩ := List.lookup_eq_some_iff.mp cast
    rw [split]
    exact List.mem_append_right _ List.mem_cons_self
  · obtain ⟨before, after, split⟩ := List.append_of_mem cast
    refine List.lookup_eq_some_iff.mpr ⟨before, after, split, fun v earlier => ?_⟩
    have once := h.once
    rw [voters, split, List.map_append, List.map_cons] at once
    have apart := (List.nodup_append.mp once).2.2 v.1 (List.mem_map_of_mem earlier) voter List.mem_cons_self
    simpa using Ne.symm apart

/-- The votes of a kind are those of the agents that have voted so. -/
theorem Proper.countP_votes (h : b.Proper) (granted : Bool) : b.votes.countP (fun v => v.2 = granted) =
    (b.eligible.toFinset.filter fun a => b.vote? a = some granted).card := by
  have once : ((b.votes.filter fun v => v.2 = granted).map (·.1)).Nodup := h.once.sublist (List.filter_sublist.map _)
  rw [List.countP_eq_length_filter, ← List.length_map (·.1), ← List.toFinset_card_of_nodup once]
  congr 1
  ext a
  have may (cast : (a, granted) ∈ b.votes) : a ∈ b.eligible := h.eligible a (List.mem_map_of_mem (f := Prod.fst) cast)
  simp only [List.mem_toFinset, List.mem_map, List.mem_filter, decide_eq_true_eq, Prod.exists, exists_and_right,
    exists_eq_right, Finset.mem_filter, h.vote?_eq_some]
  grind

/-- What an eligible agent has voted, it keeps. -/
theorem vote?_record {a : AgentId} (may : a ∈ b.eligible) (voter : AgentId) (granted : Bool) :
    (b.record voter granted).vote? a = (b.vote? a).or ([(voter, granted)].lookup a) := by
  have added : ({ b with votes := b.votes ++ [(voter, granted)] } : Ballot).vote? a =
      (b.vote? a).or ([(voter, granted)].lookup a) := List.lookup_append
  by_cases own : a = voter
  · subst own
    cases cast : b.vote? a with
    | none => rw [record_of_new may (vote?_eq_none.mp cast), added, cast]
    | some g =>
      have kept : b.record a granted = b := by
        obtain same | ⟨-, new, -⟩ := b.record_cases a granted
        · exact same
        · rw [vote?_eq_none.mpr new] at cast
          cases cast
      rw [kept, cast, Option.some_or]
  · obtain same | ⟨-, -, taken⟩ := b.record_cases voter granted
    · have other : (a == voter) = false := by simpa using own
      rw [same, List.lookup_cons, other, List.lookup_nil, Option.or_none]
    · rw [taken, added]

/-- Each vote that is held is a grant or a denial. -/
theorem length_votes (b : Ballot) : b.votes.length = b.grants + b.denies := by
  simpa [grants, denies] using List.length_eq_countP_add_countP (fun v : Poll.Vote => v.2) (l := b.votes)

/-- Whether a ballot of some voters holds the first of each voter's votes. -/
structure Holds (b : Ballot) (voters : Finset AgentId) (quorum : Nat) (votes : List Poll.Vote) : Prop where
  proper : b.Proper
  once : b.eligible.Nodup
  eligible : b.eligible.toFinset = voters
  quorum : b.quorum = quorum
  first : ∀ a ∈ voters, b.vote? a = votes.lookup a

namespace Holds

theorem record (h : b.Holds voters quorum votes) (voter : AgentId) (granted : Bool) :
    (b.record voter granted).Holds voters quorum (votes ++ [(voter, granted)]) := by
  refine ⟨h.proper.record voter granted, by simpa using h.once, by simpa using h.eligible, by simpa using h.quorum,
    fun a ha => ?_⟩
  have may : a ∈ b.eligible := List.mem_toFinset.mp (h.eligible ▸ ha)
  rw [List.lookup_append, ← h.first a ha, vote?_record may]

theorem card (h : b.Holds voters quorum votes) : b.eligible.length = voters.card := by
  rw [← h.eligible, List.toFinset_card_of_nodup h.once]

theorem count (h : b.Holds voters quorum votes) (granted : Bool) :
    b.votes.countP (fun v => v.2 = granted) = Poll.count voters votes granted := by
  rw [h.proper.countP_votes, h.eligible, Poll.count]
  exact congrArg Finset.card (Finset.filter_congr fun a ha => by rw [h.first a ha])

theorem grants_eq (h : b.Holds voters quorum votes) : b.grants = Poll.grants voters votes := by
  simpa [grants, Poll.grants] using h.count true

theorem denies_eq (h : b.Holds voters quorum votes) : b.denies = Poll.denies voters votes := by
  simpa [denies, Poll.denies] using h.count false

theorem length_votes_le (h : b.Holds voters quorum votes) : b.votes.length ≤ voters.card := by
  rw [← h.card, ← List.length_map (·.1)]
  exact (h.proper.once.subperm h.proper.eligible).length_le

theorem verdict (h : b.Holds voters quorum votes) : Poll.verdict? voters quorum votes =
    match b.status with
    | .approved => some .approved
    | .rejected => some .denied
    | .pending => none := by
  have split := b.length_votes
  have most := h.length_votes_le
  simp only [Ballot.status, Poll.verdict?, ← h.grants_eq, ← h.denies_eq, h.quorum, outstanding, h.card]
  grind

end Holds

end Ballot

/-! ## Rounds -/

/-- A vote as a poll reads it. -/
def ProposalVote.spoken (v : ProposalVote) : Poll.Vote := (v.voter, v.granted)

namespace Round
variable {κ : Type}

/-- Whether a round polls some voters on votes that it was offered. Those it has not read are in its
inbox; it reads none before the proposer's own vote, and has read none after a verdict. -/
inductive Polling (voters : Finset AgentId) (quorum : Nat) (self : AgentId) :
    Option Bool → List Poll.Vote → Round κ → Prop
  | waiting {r : Round κ} (cast : r.own = none) (holds : r.ballot.Holds voters quorum []) :
      Polling voters quorum self none (r.inbox.map ProposalVote.spoken) r
  | reading {own : Bool} {past : List Poll.Vote} {r : Round κ} (cast : r.own = some own)
      (holds : r.ballot.Holds voters quorum ((self, own) :: past))
      (open_ : ∀ end_ more, Poll.read voters quorum end_ [(self, own)] (past ++ more) =
        Poll.read voters quorum end_ ((self, own) :: past) more) :
      Polling voters quorum self (some own) (past ++ r.inbox.map ProposalVote.spoken) r

section Polling
variable {voters : Finset AgentId} {quorum : Nat} {self : AgentId} {own : Option Bool} {granted : Bool}
  {votes : List Poll.Vote} {r r' : Round κ} {v : ProposalVote}

theorem decided_of_holds (cast : r.own = some granted) (h : r.ballot.Holds voters quorum votes) :
    r.decided? = Poll.verdict? voters quorum votes := by
  rw [h.verdict, decided?, cast]
  cases r.ballot.status <;> rfl

theorem decided_of_waiting (cast : r.own = none) : r.decided? = none := by
  simp [decided?, cast]

theorem decided_offer (r : Round κ) (v : ProposalVote) : (r.offer v).decided? = r.decided? := by
  unfold offer
  split <;> rfl

theorem Polling.own_eq (h : Polling voters quorum self own votes r) : r.own = own := by
  cases h <;> assumption

theorem Polling.offer (h : Polling voters quorum self own votes r) (v : ProposalVote) :
    Polling voters quorum self own (votes ++ if r.inbox.length < r.room then [v.spoken] else []) (r.offer v) := by
  unfold Round.offer
  split
  · cases h with
    | waiting cast holds =>
      have next : Polling voters quorum self none _ { r with inbox := r.inbox ++ [v] } := .waiting cast holds
      simpa using next
    | reading cast holds open_ =>
      have next : Polling voters quorum self _ _ { r with inbox := r.inbox ++ [v] } := .reading cast holds open_
      simpa using next
  · simpa using h

theorem Polling.sent (h : Polling voters quorum self none votes r) : Polling voters quorum self none votes r.sent := by
  cases h with
  | waiting cast holds =>
    have next : Polling voters quorum self none (r.sent.inbox.map ProposalVote.spoken) r.sent := .waiting rfl holds
    exact next

theorem Polling.castOwn (h : Polling voters quorum self none votes r) (granted : Bool) :
    Polling voters quorum self (some granted) votes (r.castOwn self granted) := by
  cases h with
  | waiting cast holds =>
    have start : (r.castOwn self granted).ballot.Holds voters quorum [(self, granted)] := holds.record self granted
    exact .reading rfl start fun _ _ => rfl

theorem Polling.read (h : Polling voters quorum self own votes r) (undecided : r.decided? = none)
    {record : Ballot.Record} (cast : own.isSome = true) (next : r.read? = some (r', record)) :
    Polling voters quorum self own votes r' := by
  cases h with
  | waiting => cases cast
  | @reading own past _ cast holds open_ =>
    unfold read? at next
    split at next
    · cases next
    · next v rest inbox =>
      obtain ⟨rfl, -⟩ := Prod.mk.inj (Option.some.inj next)
      have pending : Poll.verdict? voters quorum ((self, own) :: past) = none :=
        (decided_of_holds cast holds).symm.trans undecided
      let r' : Round κ := { r with inbox := rest, ballot := r.ballot.record v.voter v.granted }
      have holds' : r'.ballot.Holds voters quorum ((self, own) :: (past ++ [v.spoken])) :=
        holds.record v.voter v.granted
      have later : Polling voters quorum self (some own) _ r' := .reading cast holds' fun end_ more => by
        rw [List.append_assoc, open_]
        exact Poll.read_of_open pending end_ v.spoken more
      simpa [inbox] using later

/-- The result of a round that knows its outcome is that of its poll. -/
theorem Polling.result (h : Polling voters quorum self own votes r) {fallback : Bool} {now : Nat} {o : Outcome}
    (known : r.outcome? fallback now = some o) : ∃ granted, own = some granted ∧
      r.result o = Poll.result voters quorum r.id fallback (self, granted) votes := by
  cases h with
  | waiting cast => simp [outcome?, decided?, cast] at known
  | @reading own past _ cast holds open_ =>
    refine ⟨own, rfl, ?_⟩
    have read : Poll.read voters quorum (Poll.late fallback (self, own)) [(self, own)]
        (past ++ r.inbox.map ProposalVote.spoken) = (o, (self, own) :: past) := by
      rw [open_]
      have decided := decided_of_holds cast holds
      cases verdict : Poll.verdict? voters quorum ((self, own) :: past) with
      | some o' =>
        rw [Poll.read_of_verdict verdict]
        simp only [outcome?, decided, verdict, Option.some.injEq] at known
        rw [known]
      | none =>
        simp only [outcome?, decided, verdict, cast] at known
        split at known
        · next expired =>
          obtain ⟨empty, -⟩ := Bool.and_eq_true_iff.mp expired
          rw [List.isEmpty_iff.mp empty, ← Option.some.inj known]
          simp [Poll.read, verdict, lapse, Poll.late]
        · cases known
    simp only [Poll.result, read, Round.result, holds.grants_eq, holds.denies_eq, holds.quorum, alive, holds.card]

end Polling

section Time
variable {r : Round κ} {fallback : Bool} {now : Nat} {o : Outcome}

/-- A round that ends without a verdict has run out of time. -/
theorem late_of_outcome (known : r.outcome? fallback now = some o) :
    o = .approved ∨ o = .denied ∨ r.deadline ≤ now := by
  unfold outcome? at known
  split at known
  · next decided =>
    obtain rfl := Option.some.inj known
    unfold decided? at decided
    split at decided
    · exact .inl (Option.some.inj decided).symm
    · exact .inr (.inl (Option.some.inj decided).symm)
    · cases decided
  · split at known
    · split at known
      · next expired => exact .inr (.inr (of_decide_eq_true (Bool.and_eq_true_iff.mp expired).2))
      · cases known
    · cases known

theorem undecided_of_open (h : r.outcome? fallback now = none) : r.decided? = none := by
  unfold outcome? at h
  split at h
  · cases h
  · assumption

/-- A round that is out of time ends once there is nothing left to read. -/
theorem outcome_of_late (cast : r.own.isSome = true) (empty : r.inbox = []) (late : r.deadline ≤ now)
    (fallback : Bool) : ∃ o, r.outcome? fallback now = some o := by
  obtain ⟨own, cast⟩ := Option.isSome_iff_exists.mp cast
  cases decided : r.decided? with
  | some o => exact ⟨o, by simp [outcome?, decided]⟩
  | none => exact ⟨lapse fallback own, by simp [outcome?, decided, cast, empty, late]⟩

end Time

end Round

end FleetCoordination
