import FleetCoordination.Proofs.Election.Safety
/-!
# Office

A machine is in office in a term from its win until it steps down, and never again after
that. Heartbeats come from machines in office only, so the leader that a machine knows of
has won the machine's term.
-/
namespace FleetCoordination.Election

def Output.resigned? : Output → Option Term
  | .steppedDown term => some term
  | _ => none

/-- The terms stepped down from in a list of outputs, in order. -/
def resigned (outputs : List Output) : List Term := outputs.filterMap Output.resigned?

@[simp] theorem resigned_nil : resigned [] = [] := rfl

@[simp] theorem resigned_append (xs ys : List Output) : resigned (xs ++ ys) = resigned xs ++ resigned ys := by
  simp [resigned]

theorem resigned_steppedDown (phase : Phase) (term : Term) :
    resigned (if phase = .leader then [.steppedDown term] else []) = if phase = .leader then [term] else [] := by
  split <;> rfl

/-! ## Tenure -/

def Machine.Leads (m : Machine) (term : Term) : Prop := m.phase = .leader ∧ m.term = term

/-- What a move does to a machine's office. -/
inductive Turnover (m : Machine) (outputs : List Output) (m' : Machine) : Prop
  | stay (won : won outputs = []) (resigned : resigned outputs = []) (leads : ∀ term, m'.Leads term ↔ m.Leads term)
  | enter (runs : m.phase = .candidate) (won : won outputs = [m.term]) (resigned : resigned outputs = [])
      (leads : m'.Leads m.term)
  | leave (leads : m.Leads m.term) (won : won outputs = []) (resigned : resigned outputs = [m.term])
      (free : m'.phase ≠ .leader)

theorem Turnover.out {m m' : Machine} {outputs : List Output} (won : won outputs = []) (resigned : resigned outputs = [])
    (free : m.phase ≠ .leader) (free' : m'.phase ≠ .leader) : Turnover m outputs m' :=
  .stay won resigned fun _ => iff_of_false (fun h => free' h.1) fun h => free h.1

/-- A machine that turns follower gives up its office, if it has any. -/
theorem Turnover.yield {m m' : Machine} (term : Term) (follows : m'.phase = .follower) (current : m.term = term) :
    Turnover m (if m.phase = .leader then [.steppedDown term] else []) m' := by
  subst current
  have free : m'.phase ≠ .leader := by simp [follows]
  by_cases leads : m.phase = .leader
  · exact .leave ⟨leads, rfl⟩ (won_steppedDown ..) (by rw [resigned_steppedDown, if_pos leads]) free
  · exact .out (won_steppedDown ..) (by rw [resigned_steppedDown, if_neg leads]) leads free

theorem Machine.not_leader_of_grants {m : Machine} {request : VoteRequest} {now : Nat}
    (h : m.grants request now = true) : m.phase ≠ .leader := by
  intro leads
  simp [grants, leads] at h

theorem Move.turnover {now : Nat} {i : Input} {m m' : Machine} {outputs : List Output}
    (move : Move now i m outputs m') : Turnover m outputs m' := by
  cases move with
  | beat => exact .stay rfl rfl fun _ => Iff.rfl
  | stand free => exact .out rfl rfl free (by simp [Machine.candidacy])
  | win runs => exact .enter runs rfl rfl ⟨rfl, rfl⟩
  | adopt => exact .yield _ rfl rfl
  | support _ grants => exact .out rfl rfl (Machine.not_leader_of_grants grants) (by simp [Machine.support])
  | join _ runs => exact .out rfl rfl (by simp [runs]) (by simp [Machine.phase_addSupporter, runs])
  | follow => exact .yield _ rfl rfl

/-- What ties a machine's office to its past outputs. -/
structure Machine.Tenure (m : Machine) (past : List Output) : Prop where
  leads : ∀ term, m.Leads term ↔ term ∈ won past ∧ term ∉ resigned past
  held : ∀ term ∈ resigned past, term ∈ won past

namespace Machine.Tenure
variable {now : Nat} {i : Input} {m m' : Machine} {past outputs : List Output}

theorem create (self : AgentId) (now timeout lease heartbeatInterval : Nat) :
    (Machine.create self now timeout lease heartbeatInterval).Tenure [] where
  leads := by simp [Leads, Machine.create, won]
  held := by simp

theorem turnover (h : m.Tenure past) (faithful : m.Faithful past) (turn : Turnover m outputs m') :
    m'.Tenure (past ++ outputs) := by
  cases turn with
  | stay won resigned leads => exact ⟨by simpa [won, resigned, leads] using h.leads, by simpa [won, resigned] using h.held⟩
  | enter runs won resigned leads =>
    -- a candidate has not won its term before, so it cannot have left it
    have fresh : m.term ∉ Election.won past := fun old => (faithful.recorded (.inr ⟨rfl, old⟩)).2 runs
    have out term : ¬(term ∈ Election.won past ∧ term ∉ Election.resigned past) := fun held => by
      simpa [runs] using ((h.leads term).mpr held).1
    refine ⟨fun term => ?_, fun term left => ?_⟩
    · simp only [won_append, won, resigned_append, resigned, List.append_nil, List.mem_append, List.mem_singleton]
      constructor
      · rintro ⟨-, current⟩
        obtain rfl : m.term = term := leads.2.symm.trans current
        exact ⟨.inr rfl, fun left => fresh (h.held _ left)⟩
      · rintro ⟨old | rfl, notLeft⟩
        · exact (out term ⟨old, notLeft⟩).elim
        · exact leads
    · rw [resigned_append, resigned, List.append_nil] at left
      rw [won_append]
      exact List.mem_append_left _ (h.held term left)
  | leave leads won resigned free =>
    refine ⟨fun term => ?_, fun term left => ?_⟩
    · simp only [won_append, won, resigned_append, resigned, List.append_nil, List.mem_append, List.mem_singleton, not_or]
      refine iff_of_false (fun leads => free leads.1) ?_
      rintro ⟨old, notLeft, other⟩
      exact other ((h.leads term).mpr ⟨old, notLeft⟩).2.symm
    · simp only [won_append, won, resigned_append, resigned, List.append_nil, List.mem_append, List.mem_singleton] at left ⊢
      rcases left with old | rfl
      · exact h.held term old
      · exact ((h.leads _).mp leads).1

theorem moves (h : m.Tenure past) (faithful : m.Faithful past) (moves : Moves now i m outputs m') :
    m'.Tenure (past ++ outputs) := by
  induction moves generalizing past with
  | none => simpa using h
  | cons move _ ih =>
    simpa only [List.append_assoc] using ih (h.turnover faithful move.turnover) (faithful.move move)

end Machine.Tenure

/-! ## Known leaders -/

/-- Whether a machine that leads has won its term, and so has the leader it knows of. -/
def Machine.Informed (elected : AgentId → Term → Prop) (m : Machine) : Prop :=
  (m.phase = .leader → elected m.self m.term) ∧ ∀ l, m.leader = some l → elected l m.term

/-- Whether an input, if it is a heartbeat, names an agent that has won its term. -/
def Input.Truthful (elected : AgentId → Term → Prop) : Input → Prop
  | .heartbeat beat _ => elected beat.leader beat.term
  | _ => True

section Informed
variable {elected : AgentId → Term → Prop} {now : Nat} {i : Input} {m m' : Machine} {outputs : List Output}

theorem Machine.Informed.mono {elected' : AgentId → Term → Prop} (h : m.Informed elected)
    (le : ∀ a term, elected a term → elected' a term) : m.Informed elected' :=
  ⟨fun leads => le _ _ (h.1 leads), fun l known => le _ _ (h.2 l known)⟩

theorem Move.informed (move : Move now i m outputs m') (h : m.Informed elected) (truthful : i.Truthful elected)
    (own : ∀ term ∈ won outputs, elected m.self term) : m'.Informed elected := by
  cases move with
  | beat => exact h
  | stand => exact ⟨by simp [Machine.candidacy], by simp [Machine.candidacy]⟩
  | win =>
    have wins : elected m.self m.term := own m.term (List.mem_singleton_self _)
    exact ⟨fun _ => wins, fun l known => Option.some.inj known ▸ wins⟩
  | adopt => exact ⟨by simp [Machine.adopt], by simp [Machine.adopt]⟩
  | support => exact ⟨by simp [Machine.support], h.2⟩
  | join =>
    unfold Machine.addSupporter
    split
    · exact h
    · exact h
  | follow => exact ⟨by simp [Machine.follow], fun l known => Option.some.inj known ▸ truthful⟩

theorem Moves.informed (moves : Moves now i m outputs m') (h : m.Informed elected) (truthful : i.Truthful elected)
    (own : ∀ term ∈ won outputs, elected m.self term) : m'.Informed elected := by
  induction moves with
  | none => exact h
  | cons move _ ih =>
    rw [won_append] at own
    have next := move.informed h truthful fun term ht => own term (List.mem_append_left _ ht)
    exact ih next fun term ht => move.self_eq ▸ own term (List.mem_append_right _ ht)

/-- A heartbeat is sent by the machine that has won its term. -/
theorem Move.heartbeat_elected (move : Move now i m outputs m') (h : m.Informed elected)
    (own : ∀ term ∈ won outputs, elected m.self term) {o : Output} (sent : o ∈ outputs) {sender recipient : AgentId}
    {beat : Heartbeat} (meant : o.messageFor? sender recipient = some (.heartbeat beat)) :
    elected beat.leader beat.term := by
  have form := Output.of_messageFor meant
  cases move with
  | beat lead =>
    rcases form with rfl | rfl <;> simp [Machine.announcement] at sent
    rw [sent]
    exact h.1 lead
  | win =>
    rcases form with rfl | rfl <;> simp [Machine.win, Machine.announcement] at sent
    rw [sent]
    exact own m.term (List.mem_singleton_self _)
  | stand => rcases form with rfl | rfl <;> simp [Machine.plea] at sent
  | support => rcases form with rfl | rfl <;> simp [Machine.support] at sent
  | join => cases sent
  | adopt | follow => rcases form with rfl | rfl <;> simp [Machine.adopt, Machine.follow] at sent

theorem Moves.heartbeat_elected (moves : Moves now i m outputs m') (h : m.Informed elected)
    (truthful : i.Truthful elected) (own : ∀ term ∈ won outputs, elected m.self term) {o : Output} (sent : o ∈ outputs)
    {sender recipient : AgentId} {beat : Heartbeat} (meant : o.messageFor? sender recipient = some (.heartbeat beat)) :
    elected beat.leader beat.term := by
  induction moves with
  | none => cases sent
  | cons move _ ih =>
    rw [won_append] at own
    have first : ∀ term ∈ won _, elected _ term := fun term ht => own term (List.mem_append_left _ ht)
    rcases List.mem_append.mp sent with now | later
    · exact move.heartbeat_elected h first now meant
    · exact ih (move.informed h truthful first) (fun term ht => move.self_eq ▸ own term (List.mem_append_right _ ht)) later

end Informed

/-! ## Clusters -/

namespace Cluster
variable {agents : Finset AgentId} {w w' : Cluster} {a : AgentId} {now : Nat} {i : Input}

def Elected (w : Cluster) (a : AgentId) (term : Term) : Prop := term ∈ won (w.outputs a)

theorem Elected.act {b : AgentId} {term : Term} (h : w.Elected b term) : (w.act a now i).Elected b term := by
  unfold Elected at h ⊢
  by_cases same : b = a
  · subst same
    rw [outputs_act_self, won_append]
    exact List.mem_append_left _ h
  · rwa [outputs_act_ne same]

/-- What every run keeps about offices: tenures are as the outputs tell, and leaders and
heartbeats name winners. -/
structure Orderly (agents : Finset AgentId) (w : Cluster) : Prop where
  tenure : ∀ a ∈ agents, (w.machines a).Tenure (w.outputs a)
  informed : ∀ a ∈ agents, (w.machines a).Informed w.Elected
  beats : ∀ e ∈ w.log, ∀ recipient beat, e.output.messageFor? e.agent recipient = some (.heartbeat beat) →
    w.Elected beat.leader beat.term

theorem Orderly.act (h : w.Orderly agents) (sound : w.Sound agents) (member : a ∈ agents)
    (truthful : i.Truthful w.Elected) : (w.act a now i).Orderly agents := by
  have moves := (w.machines a).moves_call now i
  have grow : ∀ b term, w.Elected b term → (w.act a now i).Elected b term := fun _ _ h => h.act
  have informed := (h.informed a member).mono grow
  have truthful' : i.Truthful (w.act a now i).Elected := by
    cases i with
    | heartbeat => exact truthful.act
    | tick | voteRequest | vote => trivial
  have own : ∀ term ∈ won ((w.machines a).call now i).2, (w.act a now i).Elected (w.machines a).self term := by
    intro term ht
    rw [sound.self a member, Elected, outputs_act_self, won_append]
    exact List.mem_append_right _ ht
  refine ⟨fun b hb => ?_, fun b hb => ?_, fun e he recipient beat meant => ?_⟩
  · by_cases same : b = a
    · subst same
      rw [machines_act_self, outputs_act_self]
      exact (h.tenure b hb).moves (sound.faithful b hb) moves
    · rw [machines_act_ne same, outputs_act_ne same]
      exact h.tenure b hb
  · by_cases same : b = a
    · subst same
      rw [machines_act_self]
      exact moves.informed informed truthful' own
    · rw [machines_act_ne same]
      exact (h.informed b hb).mono grow
  · rcases List.mem_append.mp he with old | new
    · exact (h.beats e old recipient beat meant).act
    · exact moves.heartbeat_elected informed truthful' own (mem_emitted.mp new).2.2 meant

theorem Orderly.step (h : w.Orderly agents) (sound : w.Sound agents) (step : Step agents w w') : w'.Orderly agents := by
  cases step with
  | tick now timeout member lists => exact h.act sound member trivial
  | @deliver a alive e m i now timeout member lists sent meant input =>
    refine h.act sound member ?_
    cases m with
    | heartbeat beat =>
      cases input
      exact h.beats e sent a beat meant
    | voteRequest | electionVote => cases input; trivial
    | proposalRequest | proposalVote | approval | propagate | ack => cases input

theorem Orderly.start (fresh : w.Fresh agents) : w.Orderly agents := by
  obtain ⟨empty, created⟩ := fresh
  have outputs a : w.outputs a = [] := by simp [Cluster.outputs, empty]
  refine ⟨fun a ha => ?_, fun a ha => ?_, by simp [empty]⟩
  · obtain ⟨_, _, _, _, e⟩ := created a ha
    rw [e, outputs]
    exact .create ..
  · obtain ⟨_, _, _, _, e⟩ := created a ha
    rw [e]
    exact ⟨by simp [Machine.create], by simp [Machine.create]⟩

theorem Reachable.orderly (h : w.Reachable agents) : w.Orderly agents := by
  induction h with
  | start fresh => exact .start fresh
  | step reached step ih => exact ih.step reached.sound step

/-- No two agents win one term. -/
theorem Reachable.elected_unique (h : w.Reachable agents) {a b : AgentId} {term : Term} (ha : w.Elected a term)
    (hb : w.Elected b term) : a = b := by
  obtain ⟨e, he, rfl, wins⟩ := mem_won_outputs.mp ha
  obtain ⟨e', he', rfl, wins'⟩ := mem_won_outputs.mp hb
  exact h.sound.winner_unique he he' wins wins'

end Cluster

end FleetCoordination.Election
