import FleetCoordination.Leadership
import FleetCoordination.Proofs.Election.Office
import FleetCoordination.Proofs.Election.Run
/-!
# Notices of office

A machine gives notice when it enters an office and when it leaves it. Its notices tell of
one tenure after the other, in ever higher terms, and the last is open just while the
machine leads. The counts of a leadership tell the same.
-/
namespace FleetCoordination

namespace Election

inductive Notice
  | entered (term : Term)
  | left (term : Term)
  deriving DecidableEq

def Output.notice? : Output → Option Notice
  | .becameLeader term _ => some (.entered term)
  | .steppedDown term => some (.left term)
  | _ => none

/-- The notices in a list of outputs, in order. -/
def notices (outputs : List Output) : List Notice := outputs.filterMap Output.notice?

@[simp] theorem notices_append (xs ys : List Output) : notices (xs ++ ys) = notices xs ++ notices ys := by
  simp [notices]

theorem entered_mem_notices {outputs : List Output} {term : Term} :
    .entered term ∈ notices outputs ↔ term ∈ won outputs := by
  simp only [notices, won, List.mem_filterMap]
  refine exists_congr fun o => and_congr_right fun _ => ?_
  cases o <;> simp [Output.notice?, Output.won?]

theorem Output.notice?_eq (o : Output) : o.notice? = (o.won?.map .entered).or (o.resigned?.map .left) := by
  cases o <;> rfl

theorem notices_of_resigned_eq_nil {outputs : List Output} (h : resigned outputs = []) :
    notices outputs = (won outputs).map .entered := by
  rw [notices, won, List.map_filterMap]
  refine List.filterMap_congr fun o ho => ?_
  rw [o.notice?_eq, List.filterMap_eq_nil_iff.mp h o ho, Option.map_none, Option.or_none]

theorem notices_of_won_eq_nil {outputs : List Output} (h : won outputs = []) :
    notices outputs = (resigned outputs).map .left := by
  rw [notices, resigned, List.map_filterMap]
  refine List.filterMap_congr fun o ho => ?_
  rw [o.notice?_eq, List.filterMap_eq_nil_iff.mp h o ho, Option.map_none, Option.none_or]

/-! ## Tenures -/

/-- The notices of tenures that are over, and of one that lasts if there is one. -/
def chronicle (closed : List Term) (current : Option Term) : List Notice :=
  closed.flatMap (fun term => [.entered term, .left term]) ++ current.toList.map .entered

section Chronicle
variable {closed : List Term} {current : Option Term} {term : Term}

theorem chronicle_enter (closed : List Term) (term : Term) :
    chronicle closed none ++ [.entered term] = chronicle closed (some term) := by
  simp [chronicle]

theorem chronicle_leave (closed : List Term) (term : Term) :
    chronicle closed (some term) ++ [.left term] = chronicle (closed ++ [term]) none := by
  simp [chronicle]

theorem entered_mem_chronicle :
    .entered term ∈ chronicle closed current ↔ term ∈ closed ∨ current = some term := by
  simp [chronicle]

/-- The last notice is of entering just if a tenure lasts, and then in its term. -/
theorem getLast?_chronicle : (chronicle closed current).getLast? = some (.entered term) ↔ current = some term := by
  cases current with
  | some t => simp [chronicle]
  | none =>
    refine iff_of_false ?_ (by simp)
    cases closed using List.reverseRecOn with
    | nil => simp [chronicle]
    | append_singleton init t => simp [chronicle]

end Chronicle

/-- What ties the tenures of a machine to its past outputs. -/
structure Machine.Reigns (m : Machine) (past : List Output) (closed : List Term) (current : Option Term) : Prop where
  told : notices past = chronicle closed current
  rising : (closed ++ current.toList).Pairwise (· < ·)
  leads : ∀ term, m.Leads term ↔ current = some term

namespace Machine.Reigns
variable {m m' : Machine} {past outputs : List Output} {closed : List Term} {current : Option Term} {now : Nat}
  {i : Input}

theorem create (self : AgentId) (start timeout lease heartbeatInterval : Nat) :
    (Machine.create self start timeout lease heartbeatInterval).Reigns [] [] none where
  told := rfl
  rising := .nil
  leads := by simp [Leads, Machine.create]

/-- A candidate runs for a term after all those that it has led. -/
theorem lt_of_mem_closed (h : m.Reigns past closed current) (faithful : m.Faithful past) (runs : m.phase = .candidate)
    {term : Term} (ended : term ∈ closed) : term < m.term := by
  have wins : term ∈ won past := by
    rw [← entered_mem_notices, h.told]
    exact entered_mem_chronicle.mpr (.inl ended)
  refine Nat.lt_of_le_of_ne (faithful.known (.inr ⟨rfl, wins⟩)) ?_
  rintro rfl
  exact (faithful.recorded (.inr ⟨rfl, wins⟩)).2 runs

theorem turnover (h : m.Reigns past closed current) (faithful : m.Faithful past) (turn : Turnover m outputs m') :
    ∃ closed current, m'.Reigns (past ++ outputs) closed current := by
  cases turn with
  | stay won resigned leads =>
    have silent : notices outputs = [] := by rw [notices_of_won_eq_nil won, resigned, List.map_nil]
    exact ⟨closed, current, by rw [notices_append, silent, List.append_nil, h.told], h.rising,
      fun term => (leads term).trans (h.leads term)⟩
  | enter runs won resigned leads =>
    -- a candidate does not lead, so no tenure lasts that it would have to leave first
    have free : current = none := by
      refine Option.eq_none_iff_forall_ne_some.mpr fun term known => ?_
      simpa [runs] using ((h.leads term).mpr known).1
    subst free
    refine ⟨closed, some m.term, ?_, ?_, fun term => ?_⟩
    · rw [notices_append, h.told, notices_of_resigned_eq_nil resigned, won]
      exact chronicle_enter closed m.term
    · refine List.pairwise_append.mpr ⟨by simpa using h.rising, List.pairwise_singleton .., fun term ended t ht => ?_⟩
      rw [List.mem_singleton.mp ht]
      exact h.lt_of_mem_closed faithful runs ended
    · rw [Option.some.injEq, ← leads.2]
      exact ⟨And.right, fun current => ⟨leads.1, current⟩⟩
  | leave leads won resigned free =>
    obtain rfl := (h.leads m.term).mp leads
    refine ⟨closed ++ [m.term], none, ?_, by simpa using h.rising, fun term => ?_⟩
    · rw [notices_append, h.told, notices_of_won_eq_nil won, resigned]
      exact chronicle_leave closed m.term
    · exact iff_of_false (fun leads => free leads.1) (by simp)

theorem moves (h : m.Reigns past closed current) (faithful : m.Faithful past) (moves : Moves now i m outputs m') :
    ∃ closed current, m'.Reigns (past ++ outputs) closed current := by
  induction moves generalizing past closed current with
  | none => exact ⟨closed, current, by simpa using h⟩
  | cons move _ ih =>
    obtain ⟨closed, current, next⟩ := h.turnover faithful move.turnover
    simpa only [List.append_assoc] using ih next (faithful.move move)

theorem run (h : m.Reigns past closed current) (faithful : m.Faithful past) (calls : List Call) :
    ∃ closed current, (m.run calls).1.Reigns (past ++ (m.run calls).2) closed current := by
  induction calls generalizing m past closed current with
  | nil => exact ⟨closed, current, by simpa [Machine.run] using h⟩
  | cons c rest ih =>
    obtain ⟨closed, current, next⟩ := h.moves faithful (m.moves_call c.now c.input)
    simpa only [Machine.run, List.append_assoc] using ih next (faithful.call c.now c.input)

end Machine.Reigns

/-! ## Balance -/

/-- How many offices a machine is in. -/
def Machine.offices (m : Machine) : Nat := if m.isLeader then 1 else 0

section Balance
variable {m m' : Machine} {outputs : List Output} {now : Nat} {i : Input}

theorem Turnover.balance (turn : Turnover m outputs m') :
    m.offices + (won outputs).length = m'.offices + (resigned outputs).length := by
  unfold Machine.offices Machine.isLeader
  cases turn with
  | stay won resigned leads =>
    have same : m'.phase = .leader ↔ m.phase = .leader :=
      ⟨fun h => ((leads _).mp ⟨h, rfl⟩).1, fun h => ((leads _).mpr ⟨h, rfl⟩).1⟩
    simp [won, resigned, same]
  | enter runs won resigned leads => simp [won, resigned, runs, leads.1]
  | leave leads won resigned free => simp [won, resigned, leads.1, free]

theorem Moves.balance (moves : Moves now i m outputs m') :
    m.offices + (won outputs).length = m'.offices + (resigned outputs).length := by
  induction moves with
  | none => rfl
  | cons move _ ih =>
    have first := move.turnover.balance
    simp only [won_append, resigned_append, List.length_append]
    omega

end Balance

end Election

/-! ## Counts -/

namespace Leadership
open Election

theorem count_offices (outputs : List Output) (metrics : ElectionMetrics) :
    (outputs.foldl count metrics).won = metrics.won + (won outputs).length ∧
      (outputs.foldl count metrics).stepDowns = metrics.stepDowns + (resigned outputs).length := by
  induction outputs generalizing metrics with
  | nil => exact ⟨rfl, rfl⟩
  | cons o rest ih =>
    obtain ⟨wins, downs⟩ := ih (count metrics o)
    rw [List.foldl_cons, wins, downs]
    cases o with
    | becameLeader => exact ⟨Nat.succ_add_eq_add_succ .., rfl⟩
    | steppedDown => exact ⟨rfl, Nat.succ_add_eq_add_succ ..⟩
    | broadcast m => cases m <;> exact ⟨rfl, rfl⟩
    | reply | voteGranted => exact ⟨rfl, rfl⟩

/-- What comes to a leadership: a tick, or a message of any kind. -/
inductive Cue
  | tick (now : Nat) (alive : List AgentId) (timeout : Nat)
  | message (m : Message) (now : Nat) (alive : List AgentId) (timeout : Nat)

def follow (l : Leadership) : Cue → Leadership
  | .tick now alive timeout => ((l.tick now alive timeout).map Prod.fst).getD l
  | .message m now alive timeout => (l.receive m now alive timeout).1

/-- Whether as many terms are counted as won as are counted as left, and one more for a leader. -/
def Balanced (l : Leadership) : Prop := l.metrics.won = l.metrics.stepDowns + l.machine.offices

namespace Balanced
variable {l : Leadership}

theorem dispatch (h : l.Balanced) {now : Nat} {i : Election.Input} {m : Machine} {outputs : List Output}
    (moves : Moves now i l.machine outputs m) : (l.dispatch m now outputs).1.Balanced := by
  obtain ⟨wins, downs⟩ := count_offices outputs l.metrics
  have balance := moves.balance
  unfold Balanced at h ⊢
  simp only [Leadership.dispatch, wins, downs]
  omega

theorem follow (h : l.Balanced) (cue : Cue) : (l.follow cue).Balanced := by
  cases cue with
  | tick now alive timeout =>
    simp only [Leadership.follow, tick]
    cases ticked : l.machine.tick now alive timeout with
    | none => exact h
    | some s => exact h.dispatch (Machine.moves_tick ticked)
  | message m now alive timeout =>
    cases m with
    | voteRequest request =>
      simp only [Leadership.follow, receive]
      split
      · exact h
      · exact h.dispatch (l.machine.moves_onVoteRequest request now timeout)
    | electionVote vote => exact h.dispatch (l.machine.moves_onVote vote now alive)
    | heartbeat beat =>
      have counted : Balanced { l with metrics := countHeartbeat l.metrics (l.machine.disposition beat) } := by
        unfold countHeartbeat
        split <;> exact h
      exact counted.dispatch (l.machine.moves_onHeartbeat beat now timeout)
    | proposalRequest | proposalVote | approval | propagate | ack => exact h

theorem run (h : l.Balanced) (cues : List Cue) : (cues.foldl Leadership.follow l).Balanced := by
  induction cues generalizing l with
  | nil => exact h
  | cons cue rest ih => exact ih (h.follow cue)

end Balanced

end Leadership

namespace Election

/-- Whatever a machine is told from its creation on, it gives notice of entering and of leaving
in turn, each time of one term, and of a higher one every time that it enters; it leads a term
just if the last notice is of entering that. A leadership counts one win more than it counts
steps down while it leads, and as many of both while it does not. -/
theorem notices_bracketed (self : AgentId) (start timeout lease heartbeatInterval : Nat) :
    let origin := Machine.create self start timeout lease heartbeatInterval
    (∀ calls : List Call, ∃ closed current, notices (origin.run calls).2 = chronicle closed current ∧
      (closed ++ current.toList).Pairwise (· < ·) ∧
      ∀ term, (origin.run calls).1.Leads term ↔ (notices (origin.run calls).2).getLast? = some (.entered term)) ∧
    ∀ cues : List Leadership.Cue, let l := cues.foldl Leadership.follow { machine := origin }
      l.metrics.won = l.metrics.stepDowns + if l.machine.isLeader then 1 else 0 := by
  intro origin
  refine ⟨fun calls => ?_, fun cues => Leadership.Balanced.run (l := { machine := origin }) rfl cues⟩
  obtain ⟨closed, current, reigns⟩ :=
    (Machine.Reigns.create self start timeout lease heartbeatInterval).run (.create ..) calls
  rw [List.nil_append] at reigns
  refine ⟨closed, current, reigns.told, reigns.rising, fun term => ?_⟩
  rw [reigns.told, getLast?_chronicle]
  exact reigns.leads term

end Election

end FleetCoordination
