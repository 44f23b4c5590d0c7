import FleetCoordination.Proofs.Reassignment.Primary
/-!
# Hysteresis

An agent that a cycle names is marked with its time. The mark is renewed or kept until the
window has passed, and no plan names an agent with such a mark.
-/
namespace FleetCoordination

theorem Timestamp.since_add (a b c : Timestamp) : a.since b + b.since c = a.since c := by
  unfold Timestamp.since
  omega

namespace Reassignment

/-- A window that fits is that many seconds. -/
theorem span_of_fits {seconds : Nat} (fits : seconds ≤ Word.last 63 / 1000) :
    span? seconds = some ((seconds : Int) * 1000000000) := by
  have word : Word.count 64 = 18446744073709551616 := rfl
  have longest : Word.last 63 / 1000 = 9223372036854775 := rfl
  have small : Int.bmod seconds (Word.count 64) = seconds := by
    rw [longest] at fits
    rw [word, Int.bmod]
    omega
  rw [span?, small, Int.natAbs_natCast, if_pos fits]

theorem hysteresis_of_fits {s : ReassignmentSettings} {windows : Windows} (h : Windows.of? s = some windows)
    (fits : s.hysteresisWindowSecs ≤ Word.last 63 / 1000) :
    windows.hysteresis = (s.hysteresisWindowSecs : Int) * 1000000000 := by
  simp only [Windows.of?, Option.bind_eq_bind, Option.bind_eq_some_iff, Option.some.injEq] at h
  obtain ⟨hysteresis, known, recovery, -, rfl⟩ := h
  rw [span_of_fits fits] at known
  exact (Option.some.inj known).symm

/-! ## Marks -/

section Marks
variable {agents : List AgentId} {a : AgentId} {now : Timestamp}

theorem get?_mark_ne {m : Memory} (h : a ∉ agents) : (m.mark agents now).named.get? a = m.named.get? a := by
  induction agents generalizing m with
  | nil => rfl
  | cons b rest ih =>
    obtain ⟨other, later⟩ : a ≠ b ∧ a ∉ rest := by simpa using h
    exact (ih (m := m.mark [b] now) later).trans (Table.get?_insert_ne _ other _)

theorem get?_mark {m : Memory} (h : a ∈ agents) : (m.mark agents now).named.get? a = some now := by
  induction agents generalizing m with
  | nil => cases h
  | cons b rest ih =>
    by_cases later : a ∈ rest
    · exact ih (m := m.mark [b] now) later
    · obtain rfl : a = b := (List.mem_cons.mp h).resolve_right later
      exact (get?_mark_ne (m := m.mark [a] now) later).trans (Table.get?_insert_self ..)

/-- Samples leave the marks alone. -/
theorem named_outlook (r : Reassigner) (w : World) (tracker : Option ComplianceTracker) (windows : Windows)
    (now : Timestamp) : (r.outlook w tracker windows now).memory.named =
      r.memory.named.filter fun _ t => decide (now.since t < windows.hysteresis) := by
  have sampled (agents : List AgentId) (acc : Memory × List (AgentId × HealthClass)) :
      (agents.foldl (Reassigner.sample r.settings w now) acc).1.named = acc.1.named := by
    induction agents generalizing acc with
    | nil => rfl
    | cons b rest ih =>
      refine (ih _).trans ?_
      unfold Reassigner.sample
      split <;> rfl
  exact sampled w.alive _

/-- A mark within its window outlives the pruning, and holds its agent back. -/
theorem debounced_of_recent {r : Reassigner} (w : World) (tracker : Option ComplianceTracker) {windows : Windows}
    {t : Timestamp} (mark : r.memory.named.get? a = some t) (recent : now.since t < windows.hysteresis) :
    (r.outlook w tracker windows now).memory.named.get? a = some t ∧
      (r.outlook w tracker windows now).debounced a = true := by
  have kept : (r.outlook w tracker windows now).memory.named.get? a = some t := by
    rw [named_outlook]
    exact Table.get?_filter_of_pass mark (decide_eq_true recent)
  refine ⟨kept, ?_⟩
  rw [Outlook.debounced, kept]
  exact decide_eq_true recent

end Marks

/-! ## Reviews -/

/-- One evaluation of a reassigner, with what it has tried. -/
structure Review where
  now : Timestamp
  attempts : List Attempt

/-- The agents that an evaluation names. -/
def Review.named (e : Review) : List AgentId := e.attempts.flatMap fun x => x.changes.map (·.agent)

/-- Evaluations of one reassigner, oldest first. Between them anything may become of the world,
the roles, the compliance and the voters; time does not go back. -/
inductive Reviews (origin : Reassigner) : List Review → Reassigner → Prop
  | start : Reviews origin [] origin
  | step {past : List Review} {r : Reassigner} (reviews : Reviews origin past r) {σ : Type}
      {propose : σ → Plan → σ × Except Fault ProposalResult} {voters : σ} {tracker : Option ComplianceTracker}
      {leads : Bool} {w : World} {roles : RoleTable} {now : Timestamp} {s' : Reassigner.Setting σ} {report : CycleReport}
      (later : ∀ e ∈ past, 0 ≤ now.since e.now)
      (ran : Reassigner.run propose { reassigner := r, tracker, voters } leads w roles now = some (s', report)) :
      Reviews origin (past ++ [⟨now, report.attempts⟩]) s'.reassigner

/-- What a reassigner remembers of the agents that an evaluation has named: each is marked
since, or its window has passed. -/
def Marked (past : List Review) (r : Reassigner) (hysteresis : Int) : Prop :=
  ∀ e ∈ past, ∀ a ∈ e.named, (∃ t, r.memory.named.get? a = some t ∧ 0 ≤ t.since e.now) ∨
    ∃ e' ∈ past, hysteresis ≤ e'.now.since e.now

/-- Whether an evaluation names no agent that an earlier one has named within the window. -/
def Apart (hysteresis : Int) (e e' : Review) : Prop := ∀ a ∈ e.named, a ∈ e'.named → hysteresis ≤ e'.now.since e.now

theorem apart_snoc {past : List Review} {hysteresis : Int} (h : past.Pairwise (Apart hysteresis)) {last : Review}
    (apart : ∀ e ∈ past, Apart hysteresis e last) : (past ++ [last]).Pairwise (Apart hysteresis) := by
  refine List.pairwise_append.mpr ⟨h, List.pairwise_singleton .., fun e he e' he' => ?_⟩
  rw [List.mem_singleton.mp he']
  exact apart e he

section Step
variable {past : List Review} {r : Reassigner} {w : World} {roles : RoleTable} {now : Timestamp}
  {tracker : Option ComplianceTracker} {windows : Windows} {e : Review} {a : AgentId}

theorem named_of_tried {attempts : List Attempt}
    (tried : attempts.map Attempt.outline =
      (plan (r.outlook w tracker windows now) (Reassigner.aliveRoles w roles)).plans.map Plan.outline) :
    (Review.mk now attempts).named = (plan (r.outlook w tracker windows now) (Reassigner.aliveRoles w roles)).claimed := by
  rw [(drafting_plan ..).claimed_eq]
  exact agents_attempts tried

/-- An agent that is named again is named when the window of its mark has passed. -/
theorem Marked.apart (marked : Marked past r windows.hysteresis) (later : ∀ e ∈ past, 0 ≤ now.since e.now) (he : e ∈ past)
    (old : a ∈ e.named) (open_ : (r.outlook w tracker windows now).debounced a = false) : windows.hysteresis ≤ now.since e.now := by
  obtain ⟨t, mark, since⟩ | ⟨e', he', passed⟩ := marked e he a old
  · have expired : ¬now.since t < windows.hysteresis := by
      intro recent
      have held := (debounced_of_recent w tracker mark recent).2
      simp [held] at open_
    have := now.since_add t e.now
    omega
  · have := later e' he'
    have := now.since_add e'.now e.now
    omega

/-- An evaluation that names nobody leaves the marks as they are. -/
theorem Marked.idle {hysteresis : Int} (marked : Marked past r hysteresis) (now : Timestamp) :
    Marked (past ++ [⟨now, []⟩]) r hysteresis := by
  intro e he a named
  rcases List.mem_append.mp he with old | new
  · obtain mark | ⟨e', he', passed⟩ := marked e old a named
    · exact .inl mark
    · exact .inr ⟨e', List.mem_append_left _ he', passed⟩
  · rw [List.mem_singleton.mp new] at named
    cases named

theorem Marked.renew (marked : Marked past r windows.hysteresis) (later : ∀ e ∈ past, 0 ≤ now.since e.now)
    {agents : List AgentId} {e' : Review} (names : e'.named = agents) (time : e'.now = now) {r' : Reassigner}
    (memory : r'.memory = (r.outlook w tracker windows now).memory.mark agents now) :
    Marked (past ++ [e']) r' windows.hysteresis := by
  have marks {a : AgentId} (ha : a ∈ agents) : r'.memory.named.get? a = some now := by
    rw [memory]
    exact get?_mark ha
  intro e he a named
  rcases List.mem_append.mp he with old | new
  · by_cases again : a ∈ agents
    · exact .inl ⟨now, marks again, later e old⟩
    · have kept : r'.memory.named.get? a = (r.outlook w tracker windows now).memory.named.get? a := by
        rw [memory]
        exact get?_mark_ne again
      obtain ⟨t, mark, since⟩ | ⟨e'', he'', passed⟩ := marked e old a named
      · by_cases recent : now.since t < windows.hysteresis
        · exact .inl ⟨t, kept.trans (debounced_of_recent w tracker mark recent).1, since⟩
        · refine .inr ⟨e', List.mem_append_right _ (List.mem_singleton_self _), ?_⟩
          have := now.since_add t e.now
          rw [time]
          omega
      · exact .inr ⟨e'', List.mem_append_left _ he'', passed⟩
  · rw [List.mem_singleton.mp new] at named ⊢
    refine .inl ⟨now, marks (names ▸ named), ?_⟩
    simp [time, Timestamp.since]

end Step

theorem Reviews.settings_eq {origin r : Reassigner} {past : List Review} (h : Reviews origin past r) :
    r.settings = origin.settings := by
  induction h with
  | start => rfl
  | @step past r _ σ propose voters tracker leads w roles now s' report later ran ih =>
    cases leads with
    | false => rw [(Reassigner.run_follows ran).1, ih]
    | true =>
      obtain ⟨windows, -, -, settings, -⟩ := Reassigner.run_leads ran
      exact settings.trans ih

theorem Reviews.kept {origin r : Reassigner} {past : List Review} (h : Reviews origin past r) {hysteresis : Int}
    (window : ∀ windows, Windows.of? origin.settings = some windows → windows.hysteresis = hysteresis) :
    Marked past r hysteresis ∧ past.Pairwise (Apart hysteresis) := by
  induction h with
  | start => exact ⟨by simp [Marked], .nil⟩
  | @step past r reviews σ propose voters tracker leads w roles now s' report later ran ih =>
    obtain ⟨marked, apart⟩ := ih
    cases leads with
    | false =>
      obtain ⟨rfl, rfl⟩ := Reassigner.run_follows ran
      refine ⟨marked.idle now, apart_snoc apart fun e he a old again => ?_⟩
      cases again
    | true =>
      obtain ⟨windows, known, tried, -, memory⟩ := Reassigner.run_leads ran
      obtain rfl := window windows (reviews.settings_eq ▸ known)
      have names := named_of_tried tried
      refine ⟨marked.renew later names rfl memory, apart_snoc apart fun e he a old again => ?_⟩
      exact marked.apart later he old ((drafting_plan ..).not_debounced (names ▸ again))

/-- An agent that two evaluations name is left alone for the window between them. -/
theorem named_apart {origin r : Reassigner} {past : List Review} (h : Reviews origin past r)
    (fits : origin.settings.hysteresisWindowSecs ≤ Word.last 63 / 1000) :
    past.Pairwise fun e e' => ∀ a ∈ e.named, a ∈ e'.named →
      (origin.settings.hysteresisWindowSecs : Int) * 1000000000 ≤ e'.now.since e.now :=
  (h.kept fun _ known => hysteresis_of_fits known fits).2

/-- A primary whose demotion is denied is named again when the window has just passed. -/
theorem named_apart_again : ∃ past r, Reviews leader past r ∧
    (∃ e ∈ past, ∃ e' ∈ past, "B" ∈ e.named ∧ "B" ∈ e'.named ∧ e'.now.since e.now = 300000000000) ∧
    past.Pairwise fun e e' => ∀ a ∈ e.named, a ∈ e'.named →
      (leader.settings.hysteresisWindowSecs : Int) * 1000000000 ≤ e'.now.since e.now := by
  have ran : ((missed []).bind fun s => (review s 90).bind fun x => (review x.1 390).map fun y => (x.2, y.2)).any
      (fun reports => decide ("B" ∈ (Review.mk (.ofSeconds 90) reports.1.attempts).named ∧
        "B" ∈ (Review.mk (.ofSeconds 390) reports.2.attempts).named)) = true := by decide +kernel
  simp only [Option.any_eq_true, Option.bind_eq_some_iff, Option.map_eq_some_iff, decide_eq_true_eq, missed, review]
    at ran
  obtain ⟨_, ⟨_, ⟨⟨s, report⟩, first, rfl⟩, ⟨s', report'⟩, second, ⟨s'', report''⟩, third, rfl⟩, named, again⟩ := ran
  have fresh : Reviews leader [] leader := .start
  have opened := fresh.step (by simp) first
  have denied := opened.step (by simp [Timestamp.since, Timestamp.total, Timestamp.ofSeconds]) second
  have renewed := denied.step (by simp [Timestamp.since, Timestamp.total, Timestamp.ofSeconds]) third
  have window : (Timestamp.ofSeconds 390).since (.ofSeconds 90) = 300000000000 := by decide
  exact ⟨_, _, renewed, ⟨_, by simp, _, by simp, named, again, window⟩, named_apart renewed (by decide)⟩

end Reassignment

end FleetCoordination
