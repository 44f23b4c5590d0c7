import Mathlib.Data.List.DropRight
import FleetCoordination.Proofs.Reassignment.Primary
/-!
# Unhealthy streaks

A leader counts how many of an agent's latest samples were unhealthy in a row. The count
outlives the samples that are kept, and is lost with the agent. Every plan that takes a role
from an agent for its health rests on such a streak.
-/
namespace FleetCoordination.Reassignment

/-! ## Counting -/

/-- Whether the last samples, so many of them, are all unhealthy. -/
def Failing (unhealthy : Float) (n : Nat) (samples : List Float) : Prop :=
  n ≤ samples.length ∧ ∀ risk ∈ samples.rtake n, unhealthy ≤ risk

theorem Failing.mono {unhealthy : Float} {m n : Nat} {samples : List Float} (h : Failing unhealthy n samples)
    (le : m ≤ n) : Failing unhealthy m samples := by
  refine ⟨Nat.le_trans le h.1, fun risk last => h.2 risk ?_⟩
  exact List.drop_subset_drop_left samples (Nat.sub_le_sub_left le _) last

/-- Whether a history goes by the settings and has counted the streak that some samples end in. -/
structure Counts (s : ReassignmentSettings) (samples : List Float) (h : HealthHistory) : Prop where
  thresholds : h.thresholds = thresholds s
  streak : h.streak = (samples.rtakeWhile fun risk => decide (s.unhealthyRisk ≤ risk)).length

namespace Counts
variable {s : ReassignmentSettings} {samples : List Float} {h : HealthHistory}

theorem fresh (s : ReassignmentSettings) : Counts s [] { thresholds := Reassignment.thresholds s } := ⟨rfl, rfl⟩

theorem record (counts : Counts s samples h) (risk : Float) (time : Timestamp) :
    Counts s (samples ++ [risk]) (h.record risk time) := by
  refine ⟨counts.thresholds, ?_⟩
  have judged : h.thresholds.isUnhealthy risk = decide (s.unhealthyRisk ≤ risk) := by rw [counts.thresholds]; rfl
  by_cases unhealthy : s.unhealthyRisk ≤ risk
  · simp [HealthHistory.record, judged, unhealthy, counts.streak]
  · simp [HealthHistory.record, judged, unhealthy]

theorem failing (counts : Counts s samples h) {n : Nat} (long : n ≤ h.streak) : Failing s.unhealthyRisk n samples := by
  rw [counts.streak] at long
  have ending := List.rtakeWhile_suffix (fun risk => decide (s.unhealthyRisk ≤ risk)) samples
  have within := List.suffix_of_suffix_length_le (List.drop_suffix (samples.length - n) samples) ending <| by
    rw [List.length_drop]
    omega
  refine ⟨Nat.le_trans long ending.length_le, fun risk last => ?_⟩
  simpa using List.mem_rtakeWhile_imp (within.mem last)

end Counts

/-! ## Histories -/

/-- The history of an agent, or the one that its next sample would begin. -/
def Memory.history (m : Memory) (s : ReassignmentSettings) (a : AgentId) : HealthHistory :=
  (m.histories.get? a).getD { thresholds := thresholds s }

theorem Outlook.streak_eq (o : Outlook) (a : AgentId) : o.streak a = (o.memory.history o.settings a).streak := by
  unfold Outlook.streak Memory.history
  cases o.memory.histories.get? a <;> rfl

/-- The sample that a world gives of an agent, if it knows the agent. -/
def reading (w : World) (a : AgentId) : List Float := ((w.health? a).map (·.risk)).toList

section Samples
variable {s : ReassignmentSettings} {w : World} {now : Timestamp} {a : AgentId} {samples : List Float}
  {acc : Memory × List (AgentId × HealthClass)}

theorem history_sample_ne {b : AgentId} (other : a ≠ b) :
    (Reassigner.sample s w now acc b).1.history s a = acc.1.history s a := by
  unfold Reassigner.sample
  split
  · simp only [Memory.history, Memory.observe, Table.get?_insert_ne _ other]
  · rfl

theorem history_sample : (Reassigner.sample s w now acc a).1.history s a =
    (reading w a).foldl (·.record · now) (acc.1.history s a) := by
  unfold Reassigner.sample reading
  cases w.health? a <;> simp [Memory.history, Memory.observe]

theorem history_foldl_ne {agents : List AgentId} (absent : a ∉ agents) :
    (agents.foldl (Reassigner.sample s w now) acc).1.history s a = acc.1.history s a := by
  induction agents generalizing acc with
  | nil => rfl
  | cons b rest ih =>
    obtain ⟨other, later⟩ : a ≠ b ∧ a ∉ rest := by simpa using absent
    exact (ih later).trans (history_sample_ne other)

theorem history_foldl {agents : List AgentId} (once : agents.Nodup) (ha : a ∈ agents) :
    (agents.foldl (Reassigner.sample s w now) acc).1.history s a =
      (reading w a).foldl (·.record · now) (acc.1.history s a) := by
  induction agents generalizing acc with
  | nil => cases ha
  | cons b rest ih =>
    obtain ⟨new, once⟩ := List.nodup_cons.mp once
    rcases List.mem_cons.mp ha with rfl | later
    · rw [List.foldl_cons, history_foldl_ne new, history_sample]
    · have other : a ≠ b := fun same => new (same ▸ later)
      rw [List.foldl_cons, ih once later, history_sample_ne other]

theorem history_prune (m : Memory) (alive : List AgentId) (hysteresis : Int) :
    (m.prune alive now hysteresis).history s a =
      if a ∈ alive then m.history s a else { thresholds := thresholds s } := by
  simp only [Memory.history, Memory.prune, Table.get?_filter_keys, decide_eq_true_eq]
  split <;> rfl

/-- A leader forgets the histories of the agents that are gone, and takes a sample of each other. -/
theorem history_outlook (r : Reassigner) (ordered : w.peers.Ordered) (tracker : Option ComplianceTracker)
    (windows : Windows) (now : Timestamp) (a : AgentId) :
    (r.outlook w tracker windows now).memory.history r.settings a =
      if a ∈ w.alive then (reading w a).foldl (·.record · now) (r.memory.history r.settings a)
      else { thresholds := thresholds r.settings } := by
  have once : w.alive.Nodup := (ordered.filter _).nodup_keys
  unfold Reassigner.outlook
  split
  · next alive => rw [history_foldl once alive, history_prune, if_pos alive]
  · next gone => rw [history_foldl_ne gone, history_prune, if_neg gone]

theorem Counts.outlook {r : Reassigner} (ordered : w.peers.Ordered)
    (counts : Counts r.settings samples (r.memory.history r.settings a))
    (tracker : Option ComplianceTracker) (windows : Windows) (now : Timestamp) :
    Counts r.settings (if a ∈ w.alive then samples ++ reading w a else [])
      ((r.outlook w tracker windows now).memory.history r.settings a) := by
  rw [history_outlook r ordered]
  split
  · unfold reading
    cases w.health? a with
    | some health => exact counts.record health.risk now
    | none => simpa using counts
  · exact .fresh r.settings

end Samples

/-! ## Grounds of a plan -/

/-- Whether the changes of a plan rest on the samples as its trigger asks: who loses a role for
its health has failed for as long as the settings say. -/
inductive Grounded (s : ReassignmentSettings) (samples : AgentId → List Float) : Trigger → List RoleChange → Prop
  | failover {primary successor : AgentId} {role : Role}
      (failing : Failing s.unhealthyRisk s.degradedThreshold (samples primary)) :
      Grounded s samples .failover [⟨primary, some .primary, role⟩, ⟨successor, some role, .primary⟩]
  | demotion {agent : AgentId} {role : Role} : Grounded s samples .demotion [⟨agent, some role, .standby⟩]
  | safeMode {agent : AgentId} {role : Role}
      (failing : Failing s.unhealthyRisk s.effectiveSafeMode (samples agent)) :
      Grounded s samples .safeMode [⟨agent, some role, .safeMode⟩]
  | recovery {agent : AgentId} {role target : Role} : Grounded s samples .recovery [⟨agent, some role, target⟩]
  | exchange {agent holder : AgentId} {role target : Role}
      (failing : Failing s.unhealthyRisk s.degradedThreshold (samples holder)) :
      Grounded s samples .recovery [⟨agent, some role, target⟩, ⟨holder, some target, role⟩]

/-- Whether some changes take no role from an agent for its health. -/
def Harmless (trigger : Trigger) (changes : List RoleChange) : Prop :=
  trigger ≠ .failover ∧ trigger ≠ .safeMode ∧ (trigger = .recovery → changes.length = 1)

theorem Grounded.harmless {s : ReassignmentSettings} {samples : AgentId → List Float} {trigger : Trigger}
    {changes : List RoleChange} (h : Grounded s samples trigger changes)
    (well : ∀ a, ¬Failing s.unhealthyRisk s.degradedThreshold (samples a)) : Harmless trigger changes := by
  cases h with
  | failover failing | exchange failing => exact (well _ failing).elim
  | safeMode failing => exact (well _ (failing.mono (Nat.le_max_right ..))).elim
  | demotion | recovery => simp [Harmless]

theorem Offer.grounded {o : Outlook} {d : Draft} {p : Plan} (offer : Offer o d p) {samples : AgentId → List Float}
    (counts : ∀ a, Counts o.settings (samples a) (o.memory.history o.settings a)) :
    Grounded o.settings samples p.trigger p.changes := by
  have failing {a : AgentId} {n : Nat} (long : n ≤ o.streak a) : Failing o.settings.unhealthyRisk n (samples a) :=
    (counts a).failing (o.streak_eq a ▸ long)
  cases offer with
  | failover held free degraded => exact .failover (failing (of_decide_eq_true degraded))
  | demotion => exact .demotion
  | safeMode held free rank long => exact .safeMode (failing long)
  | recovery => exact .recovery
  | exchange held free recovered up full found =>
    exact .exchange (failing (of_decide_eq_true (of_displaceable found).2.2))

/-! ## Evaluations -/

/-- One evaluation of a reassigner: whether it leads, the world that it sees and what it tries. -/
structure Evaluation where
  leads : Bool
  world : World
  attempts : List Attempt

/-- The samples of an agent after an evaluation. -/
def Evaluation.sampled (e : Evaluation) (a : AgentId) (past : List Float) : List Float :=
  if e.leads then if a ∈ e.world.alive then past ++ reading e.world a else [] else past

/-- The samples of an agent that count after some evaluations: those that a leader has taken
since it last missed the agent. -/
def samples (evaluations : List Evaluation) (a : AgentId) : List Float :=
  evaluations.foldl (fun past e => e.sampled a past) []

theorem samples_append (evaluations : List Evaluation) (e : Evaluation) (a : AgentId) :
    samples (evaluations ++ [e]) a = e.sampled a (samples evaluations a) := by
  simp [samples]

/-- Evaluations of one reassigner, oldest first. Between them anything may become of the
registry, the roles, the compliance, the voters and the clock. -/
inductive Evaluations (origin : Reassigner) : List Evaluation → Reassigner → Prop
  | start : Evaluations origin [] origin
  | step {past : List Evaluation} {r : Reassigner} (evaluations : Evaluations origin past r) {σ : Type}
      {propose : σ → Plan → σ × Except Fault ProposalResult} {voters : σ} {tracker : Option ComplianceTracker}
      {leads : Bool} {g : Registry} {roles : RoleTable} {now : Timestamp} {s' : Reassigner.Setting σ}
      {report : CycleReport} (built : g.Built)
      (ran : Reassigner.run propose { reassigner := r, tracker, voters } leads g.world roles now = some (s', report)) :
      Evaluations origin (past ++ [⟨leads, g.world, report.attempts⟩]) s'.reassigner

/-- What a cycle tries is grounded in the samples up to its own. -/
theorem grounded_cycle {past : List Evaluation} {r : Reassigner}
    (counts : ∀ a, Counts r.settings (samples past a) (r.memory.history r.settings a))
    {σ : Type} {propose : σ → Plan → σ × Except Fault ProposalResult} {voters : σ} {tracker : Option ComplianceTracker}
    {leads : Bool} {g : Registry} {roles : RoleTable} {now : Timestamp} {s' : Reassigner.Setting σ}
    {report : CycleReport} (built : g.Built)
    (ran : Reassigner.run propose { reassigner := r, tracker, voters } leads g.world roles now = some (s', report)) :
    let after := past ++ [⟨leads, g.world, report.attempts⟩]
    s'.reassigner.settings = r.settings ∧
      (∀ a, Counts r.settings (samples after a) (s'.reassigner.memory.history r.settings a)) ∧
      ∀ x ∈ report.attempts, Grounded r.settings (samples after) x.trigger x.changes := by
  cases leads with
  | false =>
    obtain ⟨rfl, rfl⟩ := Reassigner.run_follows ran
    refine ⟨rfl, fun a => ?_, by simp⟩
    rw [samples_append]
    exact counts a
  | true =>
    obtain ⟨windows, -, tried, settings, memory⟩ := Reassigner.run_leads ran
    have counts' a : Counts r.settings (samples (past ++ [⟨true, g.world, report.attempts⟩]) a)
        ((r.outlook g.world tracker windows now).memory.history r.settings a) := by
      rw [samples_append]
      exact (counts a).outlook built.ordered tracker windows now
    refine ⟨settings, fun a => ?_, fun x hx => ?_⟩
    · rw [memory]
      exact counts' a
    · obtain ⟨p, hp, same⟩ := List.mem_map.mp (tried ▸ List.mem_map_of_mem hx)
      obtain ⟨trigger, changes⟩ := Prod.mk.inj same
      have grounded := (drafting_plan _ _).forall_plans (fun d p (offer : Offer _ d p) => offer.grounded counts') p hp
      rwa [trigger, changes] at grounded

/-- What a run of evaluations has counted and tried. -/
theorem Evaluations.kept {self : AgentId} {settings : ReassignmentSettings} {evaluations : List Evaluation}
    {r : Reassigner} (h : Evaluations { self, settings } evaluations r) :
    r.settings = settings ∧ (∀ a, Counts settings (samples evaluations a) (r.memory.history settings a)) ∧
      ∀ before e, before ++ [e] <+: evaluations → ∀ x ∈ e.attempts,
        Grounded settings (samples (before ++ [e])) x.trigger x.changes := by
  induction h with
  | start => exact ⟨rfl, fun a => .fresh settings, by simp⟩
  | @step past r _ σ propose voters tracker leads g roles now s' report built ran ih =>
    obtain ⟨rfl, counts, grounded⟩ := ih
    obtain ⟨kept, counts', grounded'⟩ := grounded_cycle counts built ran
    refine ⟨kept, counts', fun before e first x hx => ?_⟩
    rcases List.prefix_concat_iff.mp first with whole | earlier
    · obtain ⟨rfl, last⟩ := List.append_inj' whole rfl
      obtain rfl := List.singleton_inj.mp last
      exact grounded' x hx
    · exact grounded before e earlier x hx

/-- No agent loses a role for its health before it has failed as often in a row as the settings
say, in samples taken since it was last missed; and none does when none ever fails so often. -/
theorem health_changes_grounded {self : AgentId} {settings : ReassignmentSettings} {evaluations : List Evaluation}
    {r : Reassigner} (h : Evaluations { self, settings } evaluations r) :
    (∀ before e, before ++ [e] <+: evaluations → ∀ x ∈ e.attempts,
        Grounded settings (samples (before ++ [e])) x.trigger x.changes) ∧
      ((∀ before, before <+: evaluations → ∀ a,
          ¬Failing settings.unhealthyRisk settings.degradedThreshold (samples before a)) →
        ∀ e ∈ evaluations, ∀ x ∈ e.attempts, Harmless x.trigger x.changes) := by
  obtain ⟨-, -, grounded⟩ := h.kept
  refine ⟨grounded, fun well e he x hx => ?_⟩
  obtain ⟨before, after, rfl⟩ := List.append_of_mem he
  have first : before ++ [e] <+: before ++ e :: after := ⟨after, by simp⟩
  exact (grounded before e first x hx).harmless (well _ first)

/-- A leader with a primary that is unwell and a backup that is not. -/
def ailing : Registry :=
  [.register 0 "A" .standby, .register 0 "B" .primary, .register 0 "C" .backup, .risk "B" 0.5].foldl Registry.apply {}

theorem built_ailing : ailing.Built := ⟨_, rfl⟩

def checkup (s : Reassigner.Setting (List Outcome)) (now : Int) :
    Option (Reassigner.Setting (List Outcome) × CycleReport) :=
  Reassigner.run scripted s true ailing.world (ailing.table 0) (.ofSeconds now)

/-- The primary fails over at its third unhealthy sample. -/
theorem health_changes_grounded_failover : ∃ before e r, Evaluations leader (before ++ [e]) r ∧ before.length = 2 ∧
    ∃ x ∈ e.attempts, x.trigger = .failover ∧
      Grounded leader.settings (samples (before ++ [e])) x.trigger x.changes := by
  have ran : ((checkup { reassigner := leader, tracker := none, voters := [] } 0).bind fun x =>
      (checkup x.1 30).bind fun y => checkup y.1 60).any
      (fun z => decide (∃ x ∈ z.2.attempts, x.trigger = .failover)) = true := by decide +kernel
  simp only [Option.any_eq_true, Option.bind_eq_some_iff, decide_eq_true_eq, checkup] at ran
  obtain ⟨⟨s'', report''⟩, ⟨⟨s, report⟩, first, ⟨s', report'⟩, second, third⟩, x, hx, failover⟩ := ran
  have fresh : Evaluations leader [] leader := .start
  have run := ((fresh.step built_ailing first).step built_ailing second).step built_ailing third
  exact ⟨_, _, _, run, rfl, x, hx, failover, (health_changes_grounded run).1 _ _ List.prefix_rfl x hx⟩

end FleetCoordination.Reassignment
