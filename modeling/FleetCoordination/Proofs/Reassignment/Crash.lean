import FleetCoordination.Manifest.Validation
import FleetCoordination.Proofs.Reassignment.Hysteresis
import FleetCoordination.Proofs.Reassignment.Streak
/-!
# Cycles that crash

A window of more milliseconds than a span holds cannot be made one, and validation does not look
at the windows. That is all that can stop a cycle: the times that a reassigner remembers are those
of its cycles, so what has passed since fits a span, and no streak is longer than there were cycles.
-/
namespace FleetCoordination

/-! ## Times -/

/-- Times of the years 1970 to 9999. -/
structure Timestamp.Ordinary (t : Timestamp) : Prop where
  first : dayNumber 1970 1 1 * 86400 ≤ t.seconds
  last : t.seconds < dayNumber 10000 1 1 * 86400
  nanos : t.nanos < 2000000000

/-- What a span holds, in nanoseconds. -/
def Reassignment.spanLimit : Nat := Word.last 63 * 1000000

theorem Timestamp.Ordinary.since_le {t t' : Timestamp} (h : t.Ordinary) (h' : t'.Ordinary) :
    (t.since t').natAbs ≤ Reassignment.spanLimit := by
  obtain ⟨first, last, nanos⟩ := h
  obtain ⟨first', last', nanos'⟩ := h'
  have start : dayNumber 1970 1 1 = 0 := by decide
  have stop : dayNumber 10000 1 1 = 2932897 := by decide
  have limit : Reassignment.spanLimit = 9223372036854775807000000 := by decide
  rw [start] at first first'
  rw [stop] at last last'
  rw [since, total, total, limit]
  omega

/-! ## Windows -/

/-- The manifest with other windows. -/
def Manifest.withWindows (m : Manifest) (hysteresis recovery : Nat) : Manifest :=
  { m with
    settings := { m.settings with
      reassignment := { m.settings.reassignment with
        hysteresisWindowSecs := hysteresis, recoveryWindowSecs := recovery } } }

/-- Validation does not look at the windows. -/
theorem Manifest.fault?_withWindows (m : Manifest) (hysteresis recovery : Nat) :
    (m.withWindows hysteresis recovery).fault? = m.fault? := rfl

namespace Reassignment

/-- Whether so many seconds make a span: not too many of them, or so many that the signed word
is a small negative number. -/
def Fits (seconds : Nat) : Prop :=
  seconds ≤ Word.last 63 / 1000 ∨ Word.count 64 - Word.last 63 / 1000 ≤ seconds

theorem span?_eq_none {seconds : Nat} (word : seconds ≤ Word.last 64) : span? seconds = none ↔ ¬Fits seconds := by
  have count : Word.count 64 = 18446744073709551616 := rfl
  have last : Word.last 64 = 18446744073709551615 := rfl
  have longest : Word.last 63 / 1000 = 9223372036854775 := rfl
  simp only [span?, Fits, count, longest, Int.bmod, ite_eq_right_iff, reduceCtorEq, imp_false]
  omega

theorem windows_eq_none {s : ReassignmentSettings} (hysteresis : s.hysteresisWindowSecs ≤ Word.last 64)
    (recovery : s.recoveryWindowSecs ≤ Word.last 64) :
    Windows.of? s = none ↔ ¬(Fits s.hysteresisWindowSecs ∧ Fits s.recoveryWindowSecs) := by
  rw [not_and_or, ← span?_eq_none hysteresis, ← span?_eq_none recovery, Windows.of?]
  cases span? s.hysteresisWindowSecs <;> cases span? s.recoveryWindowSecs <;> simp

/-- Only a leader needs the windows, and it needs nothing else. -/
theorem Reassigner.run_eq_none {σ : Type} {propose : σ → Plan → σ × Except Fault ProposalResult} {s : Setting σ}
    {leads : Bool} {w : World} {roles : RoleTable} {now : Timestamp} :
    run propose s leads w roles now = none ↔ leads = true ∧ Windows.of? s.reassigner.settings = none := by
  have same : s.reassigner.enter.settings = s.reassigner.settings := rfl
  cases leads <;> cases known : Windows.of? s.reassigner.settings <;> simp [run, examine, same, known]

/-! ## What is remembered -/

/-- Whether a history counts no more samples than there were cycles, and tells ordinary times. -/
structure Modest (cycles : Nat) (h : HealthHistory) : Prop where
  streak : h.streak ≤ cycles
  ordinary : ∀ t, h.streakStart = some t ∨ h.recoveringSince = some t → t.Ordinary

namespace Modest
variable {n : Nat} {h : HealthHistory} {now : Timestamp}

theorem fresh (n : Nat) (t : HealthThresholds) : Modest n { thresholds := t } := ⟨Nat.zero_le n, by simp⟩

theorem succ (h' : Modest n h) : Modest (n + 1) h := ⟨Nat.le_succ_of_le h'.streak, h'.ordinary⟩

theorem record (h' : Modest n h) (ordinary : now.Ordinary) (risk : Float) : Modest (n + 1) (h.record risk now) := by
  obtain ⟨streak, old⟩ := h'
  refine ⟨?_, fun t told => ?_⟩
  · simp only [HealthHistory.record]
    split <;> omega
  · simp only [HealthHistory.record] at told
    rcases told with began | recovering
    · split at began
      · split at began
        · exact Option.some.inj began ▸ ordinary
        · exact old t (.inl began)
      · cases began
    · split at recovering
      · cases since : h.recoveringSince with
        | none =>
          rw [since] at recovering
          exact Option.some.inj recovering ▸ ordinary
        | some t' =>
          rw [since] at recovering
          exact Option.some.inj recovering ▸ old t' (.inr since)
      · cases recovering

end Modest

/-- A mark is new, or it was there before. -/
theorem mem_named_mark {m : Memory} {agents : List AgentId} {now : Timestamp} {e : AgentId × Timestamp}
    (h : e ∈ (m.mark agents now).named.entries) : e.2 = now ∨ e ∈ m.named.entries := by
  induction agents generalizing m with
  | nil => exact .inr h
  | cons a rest ih =>
    rcases ih (m := m.mark [a] now) h with new | old
    · exact .inl new
    · exact Table.mem_insert old

/-- Whether all that a memory tells comes from so many cycles at ordinary times. -/
structure Memory.Modest (s : ReassignmentSettings) (cycles : Nat) (m : Memory) : Prop where
  named : ∀ e ∈ m.named.entries, e.2.Ordinary
  history : ∀ a, Reassignment.Modest cycles (m.history s a)

/-- Cycles of one reassigner, with their times. Between them anything may become of the leadership,
the registry, the roles, the compliance, the voters and the clock. -/
inductive Cycles (origin : Reassigner) : List Timestamp → Reassigner → Prop
  | start : Cycles origin [] origin
  | step {past : List Timestamp} {r : Reassigner} (cycles : Cycles origin past r) {σ : Type}
      {propose : σ → Plan → σ × Except Fault ProposalResult} {voters : σ} {tracker : Option ComplianceTracker}
      {leads : Bool} {g : Registry} {roles : RoleTable} {now : Timestamp} {s' : Reassigner.Setting σ}
      {report : CycleReport} (built : g.Built)
      (ran : Reassigner.run propose { reassigner := r, tracker, voters } leads g.world roles now = some (s', report)) :
      Cycles origin (past ++ [now]) s'.reassigner

/-- A cycle at an ordinary time leaves the memory modest. -/
theorem Memory.Modest.cycle {r : Reassigner} {n : Nat} (h : r.memory.Modest r.settings n) {now : Timestamp}
    (ordinary : now.Ordinary) {σ : Type} {propose : σ → Plan → σ × Except Fault ProposalResult} {voters : σ}
    {tracker : Option ComplianceTracker} {leads : Bool} {g : Registry} {roles : RoleTable}
    {s' : Reassigner.Setting σ} {report : CycleReport} (built : g.Built)
    (ran : Reassigner.run propose { reassigner := r, tracker, voters } leads g.world roles now = some (s', report)) :
    s'.reassigner.settings = r.settings ∧ s'.reassigner.memory.Modest r.settings (n + 1) := by
  cases leads with
  | false =>
    obtain ⟨rfl, rfl⟩ := Reassigner.run_follows ran
    exact ⟨rfl, h.named, fun a => (h.history a).succ⟩
  | true =>
    obtain ⟨windows, -, -, settings, memory⟩ := Reassigner.run_leads ran
    refine ⟨settings, fun e mark => ?_, fun a => ?_⟩
    · rw [memory] at mark
      obtain new | old := mem_named_mark mark
      · exact new ▸ ordinary
      · rw [named_outlook] at old
        exact h.named e (Table.mem_filter.mp old).1
    · have same : s'.reassigner.memory.history r.settings a =
          (r.outlook g.world tracker windows now).memory.history r.settings a := by rw [memory]; rfl
      rw [same, history_outlook r built.ordered]
      split
      · unfold reading
        cases g.world.health? a with
        | some health => exact (h.history a).record ordinary health.risk
        | none => exact (h.history a).succ
      · exact .fresh ..

theorem Cycles.modest {self : AgentId} {settings : ReassignmentSettings} {past : List Timestamp} {r : Reassigner}
    (h : Cycles { self, settings } past r) (ordinary : ∀ t ∈ past, t.Ordinary) :
    r.settings = settings ∧ r.memory.Modest settings past.length := by
  induction h with
  | start => exact ⟨rfl, by simp, fun a => .fresh ..⟩
  | @step past r _ σ propose voters tracker leads g roles now s' report built ran ih =>
    obtain ⟨rfl, modest⟩ := ih fun t ht => ordinary t (List.mem_append_left _ ht)
    obtain ⟨kept, modest'⟩ := modest.cycle (ordinary now (List.mem_append_right _ (List.mem_singleton_self _))) built ran
    exact ⟨kept, by rwa [List.length_append]⟩

/-- Whether a memory tells a time of an agent. -/
def Memory.Tells (m : Memory) (s : ReassignmentSettings) (t : Timestamp) : Prop :=
  ∃ a, (a, t) ∈ m.named.entries ∨ (m.history s a).streakStart = some t ∨ (m.history s a).recoveringSince = some t

/-! ## Crashes -/

/-- A valid manifest stays valid whatever its windows are, and a cycle of a leader then crashes if
and only if a window does not fit a span. Nothing else is out of range, however many cycles there
were: the time that has passed since any that is remembered fits a span, and no streak is longer
than there were cycles. -/
theorem cycle_crashes_iff {m : Manifest} (valid : m.fault? = none) (hysteresis recovery : Nat)
    (hysteresisWord : hysteresis ≤ Word.last 64) (recoveryWord : recovery ≤ Word.last 64) {self : AgentId}
    {past : List Timestamp} {r : Reassigner}
    (cycles : Cycles { self, settings := (m.withWindows hysteresis recovery).settings.reassignment } past r)
    {now : Timestamp} (ordinary : ∀ t ∈ past ++ [now], t.Ordinary) {σ : Type}
    (propose : σ → Plan → σ × Except Fault ProposalResult) (voters : σ) (tracker : Option ComplianceTracker)
    (leads : Bool) (w : World) (roles : RoleTable) :
    (m.withWindows hysteresis recovery).fault? = none ∧
      (Reassigner.run propose { reassigner := r, tracker, voters } leads w roles now = none ↔
        leads = true ∧ ¬(Fits hysteresis ∧ Fits recovery)) ∧
      (∀ t, r.memory.Tells r.settings t → (now.since t).natAbs ≤ spanLimit) ∧
      ∀ a, (r.memory.history r.settings a).streak ≤ past.length := by
  have earlier t (ht : t ∈ past) : t.Ordinary := ordinary t (List.mem_append_left _ ht)
  have present : now.Ordinary := ordinary now (List.mem_append_right _ (List.mem_singleton_self _))
  obtain ⟨settings, modest⟩ := cycles.modest earlier
  rw [← settings] at modest
  refine ⟨(m.fault?_withWindows ..).trans valid, ?_, ?_, fun a => (modest.history a).streak⟩
  · rw [Reassigner.run_eq_none, settings, windows_eq_none hysteresisWord recoveryWord]
    rfl
  · rintro t ⟨a, mark | told⟩
    · exact present.since_le (modest.named (a, t) mark)
    · exact present.since_le ((modest.history a).ordinary t told)

/-- The second cycle of a leader, with the standard windows and an agent that is unwell. -/
theorem cycle_crashes_iff_steady : ∃ r, Cycles leader [.ofSeconds 0] r ∧
    Reassigner.run scripted { reassigner := r, tracker := none, voters := [] } true ailing.world (ailing.table 0)
      (.ofSeconds 30) ≠ none ∧
    (r.memory.history r.settings "B").streak ≤ 1 := by
  have ran : (checkup { reassigner := leader, tracker := none, voters := [] } 0).isSome = true := by decide +kernel
  obtain ⟨⟨s, report⟩, first⟩ := Option.isSome_iff_exists.mp ran
  have fresh : Cycles leader [] leader := .start
  have cycles : Cycles leader [.ofSeconds 0] s.reassigner := fresh.step built_ailing first
  have valid : (Manifest.standard {}).fault? = none := Option.isNone_iff_eq_none.mp (by decide +kernel)
  have early : (Timestamp.ofSeconds 0).Ordinary := ⟨by decide, by decide, by decide⟩
  have late : (Timestamp.ofSeconds 30).Ordinary := ⟨by decide, by decide, by decide⟩
  have ordinary : ∀ t ∈ [Timestamp.ofSeconds 0] ++ [.ofSeconds 30], t.Ordinary := by simp [early, late]
  obtain ⟨-, crashes, -, streaks⟩ := cycle_crashes_iff valid 300 90 (by decide) (by decide) cycles ordinary
    scripted [] none true ailing.world (ailing.table 0)
  refine ⟨s.reassigner, cycles, fun crash => ?_, streaks "B"⟩
  exact (crashes.mp crash).2 ⟨.inl (by decide), .inl (by decide)⟩

/-- A valid manifest whose leader crashes in its first cycle. -/
theorem crash_of_valid : ∃ m : Manifest,
    m.fault? = none ∧ m.settings.reassignment.recoveryWindowSecs ≤ Word.last 64 ∧
      let leader : Reassigner := { self := "A", settings := m.settings.reassignment }
      Reassigner.run scripted { reassigner := leader, tracker := none, voters := [] } true {} {} .epoch = none := by
  have valid : ((Manifest.standard {}).withWindows 300 (Word.last 63)).fault? = none :=
    Option.isNone_iff_eq_none.mp (by decide +kernel)
  exact ⟨_, valid, by decide, by decide +kernel⟩

end Reassignment

end FleetCoordination
