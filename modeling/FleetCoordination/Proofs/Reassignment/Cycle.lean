import FleetCoordination.Proofs.Reassignment.Planning
import FleetCoordination.Reassignment.Cycle
/-!
# Cycles of a leader

A cycle samples the agents, drafts its plans and tries each of them once; it marks the
agents that it names, whatever becomes of the plans.
-/
namespace FleetCoordination.Reassignment

/-- A plan apart from its reason. -/
def Plan.outline (p : Plan) : Trigger × List RoleChange := (p.trigger, p.changes)

/-- An attempt apart from its result. -/
def Attempt.outline (a : Attempt) : Trigger × List RoleChange := (a.trigger, a.changes)

namespace Reassigner
variable {σ : Type} {propose : σ → Plan → σ × Except Fault ProposalResult} {s s' : Setting σ} {w : World}
  {roles : RoleTable} {now : Timestamp} {report : CycleReport}

/-- What the rules look at in a cycle. -/
def outlook (r : Reassigner) (w : World) (tracker : Option ComplianceTracker) (windows : Windows) (now : Timestamp) :
    Outlook :=
  { self := r.self, settings := r.settings, tracker, windows, now
    memory := (w.alive.foldl (sample r.settings w now) (r.memory.prune w.alive now windows.hysteresis, [])).1 }

theorem mark_append (m : Memory) (xs ys : List AgentId) (now : Timestamp) :
    m.mark (xs ++ ys) now = (m.mark xs now).mark ys now := by
  simp [Memory.mark]

/-- Each plan is tried once, and its agents are marked. -/
theorem foldl_attempt (propose : σ → Plan → σ × Except Fault ProposalResult) (plans : List Plan) (s : Setting σ)
    (c : Cycle) :
    let out := plans.foldl (attempt propose) (s, c)
    out.2.report.attempts.map Attempt.outline = c.report.attempts.map Attempt.outline ++ plans.map Plan.outline ∧
      out.1.reassigner.settings = s.reassigner.settings ∧
      out.1.reassigner.memory = s.reassigner.memory.mark (plans.flatMap Plan.agents) c.now := by
  induction plans generalizing s c with
  | nil => simp [Memory.mark]
  | cons p rest ih =>
    obtain ⟨attempts, settings, memory⟩ := ih (attempt propose (s, c) p).1 (attempt propose (s, c) p).2
    refine ⟨attempts.trans ?_, settings, memory.trans ?_⟩
    · simp [attempt, settle, Attempt.outline, Plan.outline]
    · rw [List.flatMap_cons, mark_append]
      rfl

/-- A cycle is opened on what the rules look at, with all their plans before it. -/
theorem examine_eq {r r' : Reassigner} {tracker : Option ComplianceTracker} {c : Cycle}
    (h : r.examine w roles tracker now = some (r', c)) : ∃ windows, Windows.of? r.settings = some windows ∧
      r'.settings = r.settings ∧ r'.memory = (r.outlook w tracker windows now).memory ∧ c.now = now ∧
      c.report.attempts = [] ∧ c.pending = (plan (r.outlook w tracker windows now) (aliveRoles w roles)).plans := by
  simp only [examine, Option.bind_eq_bind, Option.bind_eq_some_iff, Option.some.injEq] at h
  obtain ⟨windows, known, opened⟩ := h
  obtain ⟨rfl, rfl⟩ := Prod.mk.inj opened
  exact ⟨windows, known, rfl, rfl, rfl, rfl, rfl⟩

/-- What a leader's cycle does. -/
theorem run_leads (h : run propose s true w roles now = some (s', report)) :
    ∃ windows, Windows.of? s.reassigner.settings = some windows ∧
      let o := s.reassigner.outlook w s.tracker windows now
      report.attempts.map Attempt.outline = (plan o (aliveRoles w roles)).plans.map Plan.outline ∧
        s'.reassigner.settings = s.reassigner.settings ∧
        s'.reassigner.memory = o.memory.mark (plan o (aliveRoles w roles)).claimed now := by
  simp only [run, if_true, Option.bind_eq_bind, Option.bind_eq_some_iff, Option.some.injEq] at h
  obtain ⟨⟨reassigner, c⟩, opened, ran⟩ := h
  obtain ⟨windows, known, settings, memory, time, fresh, pending⟩ := examine_eq opened
  obtain ⟨attempts, settings', memory'⟩ :=
    foldl_attempt propose c.pending { s with reassigner } { c with pending := [] }
  obtain ⟨rfl, rfl⟩ := Prod.mk.inj ran
  refine ⟨windows, known, ?_, settings'.trans settings, ?_⟩
  · rw [attempts, fresh, pending]
    rfl
  · rw [memory', memory, time, pending, ← (drafting_plan ..).claimed_eq]
    rfl

/-- An agent that does not lead tries nothing and remembers what it did. -/
theorem run_follows (h : run propose s false w roles now = some (s', report)) : s' = s ∧ report = {} := by
  obtain ⟨rfl, rfl⟩ := Prod.mk.inj (Option.some.inj h)
  exact ⟨rfl, rfl⟩

end Reassigner

end FleetCoordination.Reassignment
