import FleetCoordination.Manifest.Validation
import FleetCoordination.Proofs.HealthHistory
import FleetCoordination.Proofs.Reassignment.Failover
import FleetCoordination.Proofs.Reassignment.Hysteresis
import FleetCoordination.Proofs.Reassignment.Streak
/-!
# Recovery

An agent that has been well for long enough moves up by a step. It fills a vacancy or changes
places with an agent that has failed, though never with the primary: had that failed, the
agent would have been there to succeed it.
-/
namespace FleetCoordination

/-! ## Valid settings -/

namespace Manifest

theorem demand_eq_none {holds : Bool} {f : Fault} : demand holds f = none ↔ holds = true := by
  cases holds <;> simp [demand]

/-- A valid manifest does not put the risk of recovery above the other. -/
theorem risks_of_valid {m : Manifest} (valid : m.fault? = none) :
    m.settings.reassignment.unhealthyRisk.isNaN = false ∧
      ¬m.settings.reassignment.unhealthyRisk < m.settings.reassignment.recoveryRisk := by
  simp only [fault?, settingsFault?, reassignmentFault?, riskFault?, Option.orElse_eq_orElse, Option.orElse_eq_or,
    Option.or_eq_none_iff, demand_eq_none] at valid
  obtain ⟨-, -, -, -, -, -, -, -, ⟨unit, -, order, -⟩, -⟩ := valid
  simp only [Scalar.inUnit, Bool.and_eq_true, decide_eq_true_eq] at unit
  exact ⟨(Scalar.numbers_of_le unit.1).2, by simpa using order⟩

end Manifest

namespace Reassignment

/-- The windows of settings, where they fit. -/
def Windows.ofSeconds (s : ReassignmentSettings) : Windows :=
  { hysteresis := (s.hysteresisWindowSecs : Int) * 1000000000, recovery := (s.recoveryWindowSecs : Int) * 1000000000 }

theorem windows_of_fits {s : ReassignmentSettings} (hysteresis : s.hysteresisWindowSecs ≤ Word.last 63 / 1000)
    (recovery : s.recoveryWindowSecs ≤ Word.last 63 / 1000) : Windows.of? s = some (.ofSeconds s) := by
  simp [Windows.of?, Windows.ofSeconds, span_of_fits hysteresis, span_of_fits recovery]

/-- What the rules look at in a state that a reassigner has come to. -/
def Reassigner.view (r : Reassigner) (tracker : Option ComplianceTracker) (now : Timestamp) : Outlook :=
  { self := r.self, settings := r.settings, memory := r.memory, tracker, windows := .ofSeconds r.settings, now }

/-! ## Settled failovers -/

section Settled
variable {o : Outlook} {d d' : Draft} {a primary : AgentId} {roles : RoleTable}

theorem Drafting.claimed_subset (h : Drafting o d d') : d.claimed ⊆ d'.claimed := by
  induction h with
  | none => exact List.Subset.refl _
  | hold _ n ih => exact ih
  | add _ offer ih => exact List.subset_append_of_subset_left _ ih

/-- An agent that may be named in the end could have been all along. -/
theorem Drafting.free (h : Drafting o d d') (free : Free o d' a) : Free o d a :=
  ⟨fun named => free.1 (h.claimed_subset named), free.2⟩

/-- A plan of a draft was there from the start or is offered on the way. -/
theorem Drafting.offered (h : Drafting o d d') {p : Plan} (hp : p ∈ d'.plans) :
    p ∈ d.plans ∨ ∃ d'', Drafting o d d'' ∧ Offer o d'' p := by
  induction h with
  | none => exact .inl hp
  | hold _ n ih => exact ih hp
  | add drafting offer ih =>
    rcases List.mem_append.mp hp with old | new
    · exact ih old
    · exact .inr ⟨_, drafting, List.mem_singleton.mp new ▸ offer⟩

theorem replacement_ne_none (held : (a, .backup) ∈ d.roles.entries) (free : Free o d a) (healthy : o.healthy a = true) :
    replacement o d ≠ none := by
  obtain ⟨risk, latest, low⟩ := healthy_iff.mp healthy
  have candidate : (a, risk) ∈ candidates o d .backup := mem_candidates.mpr ⟨held, free, latest, low⟩
  have best : fittest (candidates o d .backup) ≠ none := fun none => by
    rw [fittest_eq_none.mp none] at candidate
    cases candidate
  obtain ⟨c, best⟩ := Option.ne_none_iff_exists'.mp best
  simp [replacement, best]

/-- A primary that has failed is named with its successor while there is a backup that is well. -/
theorem not_free_failover (degraded : o.degraded primary = true) (held : (a, .backup) ∈ d.roles.entries)
    (free : Free o d a) (healthy : o.healthy a = true) : ¬Free o (failover o d primary) primary := by
  intro still
  obtain ⟨successor, role, -, -, planned⟩ | ⟨n, planned, none⟩ := failover_cases o d primary
  · rw [planned] at still
    exact still.1 (by simp [Draft.add, Plan.agents, failoverPlan])
  · rw [planned] at still
    exact none ⟨degraded, still, replacement_ne_none held free healthy⟩

theorem drafting_foldl_failover (h : Drafting o { roles } d) {xs : List AgentId}
    (primaries : xs ⊆ Draft.holders { roles } .primary) : Drafting o d (xs.foldl (failover o) d) :=
  Drafting.foldl fun _ later _ ha => drafting_failover fun unnamed =>
    ((h.trans later).entry unnamed).mpr (mem_holders.mp (primaries ha))

/-- Each primary has its turn. -/
theorem failovers_turn (held : (primary, .primary) ∈ roles.entries) : ∃ d, Drafting o { roles } d ∧
    Drafting o d (failover o d primary) ∧ Drafting o (failover o d primary) (failovers o { roles }) := by
  obtain ⟨xs, ys, split⟩ := List.append_of_mem (mem_holders.mpr held : primary ∈ Draft.holders { roles } .primary)
  have before : Drafting o { roles } (xs.foldl (failover o) { roles }) :=
    drafting_foldl_failover .none (split ▸ List.subset_append_left ..)
  have turn : Drafting o (xs.foldl (failover o) { roles }) (failover o (xs.foldl (failover o) { roles }) primary) :=
    drafting_failover fun unnamed => (before.entry unnamed).mpr held
  refine ⟨_, before, turn, ?_⟩
  rw [failovers, split, List.foldl_append, List.foldl_cons]
  refine drafting_foldl_failover (before.trans turn) fun b hb => ?_
  rw [split]
  exact List.mem_append_right _ (List.mem_cons_of_mem _ hb)

/-- Once the failovers are drafted, a primary that has failed and a backup that is well are not
both there to be named. -/
theorem failovers_settled (held : (primary, .primary) ∈ roles.entries) (degraded : o.degraded primary = true)
    (backup : (a, .backup) ∈ roles.entries) (healthy : o.healthy a = true)
    (free : Free o (failovers o { roles }) primary) : ¬Free o (failovers o { roles }) a := by
  obtain ⟨d, before, turn, after⟩ := failovers_turn (o := o) held
  intro free'
  -- at the primary's turn the backup was unnamed too, and so held its role still
  have unnamed := turn.free (after.free free')
  exact not_free_failover degraded ((before.entry unnamed.1).mpr backup) unnamed healthy (after.free free)

theorem trigger_failovers {p : Plan} (hp : p ∈ (failovers o { roles }).plans) : p.trigger = .failover := by
  have kept (xs : List AgentId) (d : Draft) (start : ∀ p ∈ d.plans, p.trigger = .failover) :
      ∀ p ∈ (xs.foldl (failover o) d).plans, p.trigger = .failover := by
    induction xs generalizing d with
    | nil => exact start
    | cons x xs ih =>
      refine ih _ fun p hp => ?_
      obtain ⟨successor, role, -, -, planned⟩ | ⟨n, planned, -⟩ := failover_cases o d x <;> rw [planned] at hp
      · rcases List.mem_append.mp hp with old | new
        · exact start p old
        · rw [List.mem_singleton.mp new, failoverPlan]
      · exact start p hp
  exact kept _ _ (by simp) p hp

end Settled

/-! ## What the histories tell -/

/-- The samples of an agent once a world has been sampled; they are lost with the agent. -/
def sampled (w : World) (now : Timestamp) (a : AgentId) (past : List Sample) : List Sample :=
  if a ∈ w.alive then past ++ (reading w a).map (⟨·, now⟩) else []

/-- The states that a reassigner comes to, with the samples of each agent that its history was
given. Between the steps anything may become of the registry, the roles, the compliance, the
voters and the clock. -/
inductive Reassigner.Reached (origin : Reassigner) : (AgentId → List Sample) → Reassigner → Prop
  | start : Reached origin (fun _ => []) origin
  | enter {log : AgentId → List Sample} {r : Reassigner} (reached : Reached origin log r) : Reached origin log r.enter
  | examine {log : AgentId → List Sample} {r r' : Reassigner} (reached : Reached origin log r) {g : Registry}
      {roles : RoleTable} {tracker : Option ComplianceTracker} {now : Timestamp} {c : Cycle} (built : g.Built)
      (opened : r.examine g.world roles tracker now = some (r', c)) :
      Reached origin (fun a => sampled g.world now a (log a)) r'
  | raise {log : AgentId → List Sample} {r : Reassigner} (reached : Reached origin log r) (p : Plan) (now : Timestamp) :
      Reached origin log (r.raise p now)
  | settle {log : AgentId → List Sample} {r : Reassigner} (reached : Reached origin log r)
      (tracker : Option ComplianceTracker) (c : Cycle) (p : Plan) (result : Except Fault ProposalResult) :
      Reached origin log (r.settle tracker c p result).1

/-- Whether each history that is remembered is that of an agent's samples. -/
def Remembers (s : ReassignmentSettings) (log : AgentId → List Sample) (m : Memory) : Prop :=
  ∀ a, m.history s a = HealthHistory.ofSamples (thresholds s) (log a)

theorem ofSamples_sampled (t : HealthThresholds) (w : World) (now : Timestamp) (a : AgentId) (past : List Sample) :
    HealthHistory.ofSamples t (sampled w now a past) =
      if a ∈ w.alive then (reading w a).foldl (·.record · now) (.ofSamples t past) else { thresholds := t } := by
  unfold sampled
  split
  · simp [HealthHistory.ofSamples, List.foldl_map]
  · rfl

theorem Reassigner.Reached.remembers {self : AgentId} {settings : ReassignmentSettings} {log : AgentId → List Sample}
    {r : Reassigner} (h : Reached { self, settings } log r) :
    r.settings = settings ∧ Remembers settings log r.memory := by
  induction h with
  | start => exact ⟨rfl, fun a => rfl⟩
  | enter _ ih | raise _ _ _ ih | settle _ _ _ _ _ ih => exact ih
  | @examine log r r' _ g roles tracker now c built opened ih =>
    obtain ⟨rfl, remembers⟩ := ih
    obtain ⟨windows, -, settings, memory, -⟩ := examine_eq opened
    refine ⟨settings, fun a => ?_⟩
    rw [memory, history_outlook r built.ordered, remembers a, ofSamples_sampled]

theorem counts_ofSamples (s : ReassignmentSettings) (samples : List Sample) :
    Counts s (samples.map (·.risk)) (HealthHistory.ofSamples (thresholds s) samples) := by
  induction samples using List.reverseRecOn with
  | nil => exact .fresh s
  | append_singleton samples x ih =>
    rw [HealthHistory.ofSamples_concat, List.map_append]
    exact ih.record x.risk x.time

/-- Whether some samples end in such as are all below the risk of recovery, the first of them
taken long enough ago. -/
def Recovered (s : ReassignmentSettings) (now : Timestamp) (samples : List Sample) : Prop :=
  ∃ before first after, samples = before ++ first :: after ∧
    (s.recoveryWindowSecs : Int) * 1000000000 ≤ now.since first.time ∧ ∀ x ∈ first :: after, x.risk < s.recoveryRisk

/-- Whether the rules look at the histories of the agents' samples, under settings whose windows
fit and whose risks are in order. -/
structure Informed (o : Outlook) (log : AgentId → List Sample) : Prop where
  remembers : Remembers o.settings log o.memory
  window : o.windows.recovery = (o.settings.recoveryWindowSecs : Int) * 1000000000
  number : o.settings.unhealthyRisk.isNaN = false
  order : ¬o.settings.unhealthyRisk < o.settings.recoveryRisk

namespace Informed
variable {o : Outlook} {log : AgentId → List Sample} {a : AgentId}

theorem recovered (h : Informed o log) (recovered : o.recovered a = true) : Recovered o.settings o.now (log a) := by
  unfold Outlook.recovered at recovered
  split at recovered
  · next duration known =>
    obtain ⟨history, entry, known⟩ := Option.bind_eq_some_iff.mp known
    have told : history = HealthHistory.ofSamples (thresholds o.settings) (log a) := by
      rw [← h.remembers a, Memory.history, entry, Option.getD_some]
    obtain ⟨before, first, after, split, since, low⟩ := HealthHistory.exists_recovering _ _ (told ▸ known)
    refine ⟨before, first, after, split, ?_, low⟩
    rw [since, ← h.window]
    exact of_decide_eq_true recovered
  · cases recovered

theorem latest (h : Informed o log) : o.latest a = ((log a).map (·.risk)).getLast? := by
  rw [← HealthHistory.latest_ofSamples (thresholds o.settings), ← h.remembers a, Outlook.latest, Memory.history]
  cases o.memory.histories.get? a <;> rfl

/-- An agent that has recovered is well, since the risk of recovery is not above the other. -/
theorem healthy (h : Informed o log) (recovered : Recovered o.settings o.now (log a)) : o.healthy a = true := by
  obtain ⟨before, first, after, split, -, low⟩ := recovered
  have some_ : first :: after ≠ [] := List.cons_ne_nil first after
  have last : (log a).getLast? = some ((first :: after).getLast some_) := by
    rw [split, List.getLast?_append_of_ne_nil _ some_, List.getLast?_eq_some_getLast]
  refine healthy_iff.mpr ⟨_, ?_, Scalar.lt_of_lt_of_not_lt (low _ (List.getLast_mem some_)) h.order h.number⟩
  rw [h.latest, List.getLast?_map, last, Option.map_some]

theorem failing (h : Informed o log) (degraded : o.degraded a = true) :
    Failing o.settings.unhealthyRisk o.settings.degradedThreshold ((log a).map (·.risk)) := by
  have counts : Counts o.settings ((log a).map (·.risk)) (o.memory.history o.settings a) := by
    rw [h.remembers a]
    exact counts_ofSamples o.settings (log a)
  exact counts.failing (o.streak_eq a ▸ of_decide_eq_true degraded)

end Informed

/-! ## Recoveries -/

/-- The steps up, each from a role to the next. -/
def steps : List (Role × Role) := [(.safeMode, .standby), (.standby, .backup), (.backup, .primary)]

/-- What a recovery may come to: an agent that has recovered moves up by one step, to where there
is room or in the place of an agent that has failed and is not primary. -/
inductive Promotes (s : ReassignmentSettings) (log : AgentId → List Sample) (now : Timestamp) (roles : RoleTable) :
    List RoleChange → Prop
  | vacancy {agent : AgentId} {role target : Role} (held : roles.get? agent = some role)
      (step : (role, target) ∈ steps) (recovered : Recovered s now (log agent)) :
      Promotes s log now roles [⟨agent, some role, target⟩]
  | exchange {agent holder : AgentId} {role target : Role} (held : roles.get? agent = some role)
      (step : (role, target) ∈ steps) (recovered : Recovered s now (log agent)) (held' : roles.get? holder = some target)
      (failing : Failing s.unhealthyRisk s.degradedThreshold ((log holder).map (·.risk))) (junior : target ≠ .primary) :
      Promotes s log now roles [⟨agent, some role, target⟩, ⟨holder, some target, role⟩]

theorem Promotes.not_primary {s : ReassignmentSettings} {log : AgentId → List Sample} {now : Timestamp}
    {roles : RoleTable} {changes : List RoleChange} (h : Promotes s log now roles changes) {c : RoleChange}
    (hc : c ∈ changes) : roles.get? c.agent ≠ some .primary := by
  have low {role target : Role} (step : (role, target) ∈ steps) : role ≠ .primary := by
    rintro rfl
    simp [steps] at step
  intro primary
  cases h with
  | vacancy held step =>
    obtain rfl := List.mem_singleton.mp hc
    exact low step (Option.some.inj (held.symm.trans primary))
  | exchange held step _ held' _ junior =>
    rcases List.mem_cons.mp hc with rfl | hc
    · exact low step (Option.some.inj (held.symm.trans primary))
    · obtain rfl := List.mem_singleton.mp hc
      exact junior (Option.some.inj (held'.symm.trans primary))

theorem step_of_promotion {role target : Role} (h : role.promotion = some target) : (role, target) ∈ steps := by
  cases role <;> cases h <;> decide

section Plan
variable {o : Outlook} {roles : RoleTable} {d : Draft} {a agent holder : AgentId} {role target : Role}

theorem drafting_settled (o : Outlook) (roles : RoleTable) : Drafting o (failovers o { roles }) (plan o roles) :=
  ((drafting_demotions ..).trans (drafting_retirements ..)).trans (drafting_promotions ..)

/-- A backup that is well does not displace the primary. -/
theorem target_ne_primary (drafting : Drafting o (failovers o { roles }) d) (held : (agent, role) ∈ d.roles.entries)
    (free : Free o d agent) (healthy : o.healthy agent = true) (up : role.promotion = some target)
    (found : displaceable o d target = some holder) : target ≠ .primary := by
  rintro rfl
  have whole := (drafting_failovers o { roles }).trans drafting
  obtain ⟨held', free', degraded⟩ := of_displaceable found
  have backup : role = .backup := by cases role <;> first | rfl | cases up
  subst backup
  exact failovers_settled ((whole.entry free'.1).mp held') degraded ((whole.entry free.1).mp held) healthy
    (drafting.free free') (drafting.free free)

/-- A recovery that is offered once the failovers are drafted. -/
theorem Informed.promotes {log : AgentId → List Sample} (h : Informed o log) (ordered : roles.Ordered)
    (drafting : Drafting o (failovers o { roles }) d) {p : Plan} (offer : Offer o d p)
    (trigger : p.trigger = .recovery) : Promotes o.settings log o.now roles p.changes := by
  have whole := (drafting_failovers o { roles }).trans drafting
  have entry {a : AgentId} {r : Role} (held : (a, r) ∈ d.roles.entries) (free : Free o d a) : roles.get? a = some r :=
    ordered.get?_eq_some.mpr ((whole.entry free.1).mp held)
  cases offer with
  | failover | demotion | safeMode => cases trigger
  | recovery held free recovered up room => exact .vacancy (entry held free) (step_of_promotion up) (h.recovered recovered)
  | exchange held free recovered up full found =>
    have well := h.recovered recovered
    obtain ⟨held', free', degraded⟩ := of_displaceable found
    exact .exchange (entry held free) (step_of_promotion up) well (entry held' free') (h.failing degraded)
      (target_ne_primary drafting held free (h.healthy well) up found)

/-- Only failovers and demotions take the first role from an agent. -/
theorem trigger_of_primary {log : AgentId → List Sample} (ordered : roles.Ordered)
    (promotes : ∀ p ∈ (plan o roles).plans, p.trigger = .recovery → Promotes o.settings log o.now roles p.changes)
    {p : Plan} (hp : p ∈ (plan o roles).plans) {c : RoleChange} (hc : c ∈ p.changes)
    (held : roles.get? c.agent = some .primary) : p.trigger = .failover ∨ p.trigger = .demotion := by
  obtain none | ⟨d, drafting, offer⟩ := (drafting_plan o roles).offered hp
  · cases none
  cases offer with
  | failover => exact .inl rfl
  | demotion => exact .inr rfl
  | @safeMode agent role held' free rank =>
    obtain rfl : c = _ := by simpa [safeModePlan] using hc
    have entry := ordered.get?_eq_some.mpr ((drafting.entry free.1).mp held')
    obtain rfl := Option.some.inj (held.symm.trans entry)
    simp at rank
  | recovery | exchange => exact ((promotes _ hp rfl).not_primary hc held).elim

end Plan

/-- Whatever state a reassigner has come to under valid settings whose windows fit, each recovery
that it plans moves up by one step an agent that has been below the risk of recovery for the whole
window. At most it takes the place for it from an agent that has failed, and never from the primary:
that loses its role to a failover or a demotion only. -/
theorem recoveries_sound {m : Manifest} (valid : m.fault? = none)
    (hysteresisFits : m.settings.reassignment.hysteresisWindowSecs ≤ Word.last 63 / 1000)
    (recoveryFits : m.settings.reassignment.recoveryWindowSecs ≤ Word.last 63 / 1000)
    {self : AgentId} {log : AgentId → List Sample} {r : Reassigner}
    (reached : Reassigner.Reached { self, settings := m.settings.reassignment } log r)
    (tracker : Option ComplianceTracker) (now : Timestamp) {roles : RoleTable} (ordered : roles.Ordered) :
    let plans := (plan (r.view tracker now) roles).plans
    Windows.of? r.settings = some (.ofSeconds r.settings) ∧
      (∀ p ∈ plans, p.trigger = .recovery → Promotes r.settings log now roles p.changes) ∧
      ∀ p ∈ plans, ∀ c ∈ p.changes, roles.get? c.agent = some .primary →
        p.trigger = .failover ∨ p.trigger = .demotion := by
  intro plans
  obtain ⟨settings, remembers⟩ := reached.remembers
  rw [← settings] at hysteresisFits recoveryFits remembers
  obtain ⟨number, order⟩ := Manifest.risks_of_valid valid
  rw [← settings] at number order
  have informed : Informed (r.view tracker now) log := ⟨remembers, rfl, number, order⟩
  have promotes : ∀ p ∈ plans, p.trigger = .recovery → Promotes r.settings log now roles p.changes := by
    intro p hp trigger
    obtain early | ⟨d, drafting, offer⟩ := (drafting_settled (r.view tracker now) roles).offered hp
    · rw [trigger_failovers early] at trigger
      cases trigger
    · exact informed.promotes ordered drafting offer trigger
  exact ⟨windows_of_fits hysteresisFits recoveryFits, promotes,
    fun p hp c hc held => trigger_of_primary (o := r.view tracker now) ordered promotes hp hc held⟩

/-- A manifest under which a backup may stay on for a while after it has failed. -/
def patient : Manifest :=
  { Manifest.standard {} with settings := { node := { id := "A" }, reassignment := { safeModeThreshold := 5 } } }

/-- A leader with a primary and a standby agent that are well and a backup that is not. -/
def rallying : Registry :=
  [.register 0 "A" .standby, .register 0 "B" .primary, .register 0 "C" .backup, .register 0 "D" .standby,
    .risk "A" 0.25, .risk "C" 0.5].foldl Registry.apply {}

/-- The state of the leader after cycles at some times. -/
def watched (times : List Int) : Option Reassigner :=
  times.foldlM (fun r t => (r.examine rallying.world (rallying.table 0) none (.ofSeconds t)).map (·.1))
    { self := "A", settings := patient.settings.reassignment }

theorem built_rallying : rallying.Built := ⟨_, rfl⟩

theorem reached_watched {times : List Int} {r : Reassigner} (h : watched times = some r) :
    ∃ log, Reassigner.Reached { self := "A", settings := patient.settings.reassignment } log r := by
  obtain ⟨start, same, log, reached⟩ : ∃ start, times.foldlM (fun r t =>
        (r.examine rallying.world (rallying.table 0) none (.ofSeconds t)).map (·.1)) start = some r ∧
      ∃ log, Reassigner.Reached { self := "A", settings := patient.settings.reassignment } log start :=
    ⟨_, h, _, .start⟩
  clear h
  induction times generalizing start log with
  | nil =>
    obtain rfl := Option.some.inj same
    exact ⟨log, reached⟩
  | cons t rest ih =>
    rw [List.foldlM_cons, Option.bind_eq_bind, Option.bind_eq_some_iff] at same
    obtain ⟨next, watch, later⟩ := same
    obtain ⟨⟨r', c⟩, opened, rfl⟩ := Option.map_eq_some_iff.mp watch
    exact ih _ later _ (reached.examine built_rallying opened)

/-- After a minute and a half the agent that is well takes the place of the backup. -/
theorem recoveries_sound_exchange : ∃ log r,
    Reassigner.Reached { self := "A", settings := patient.settings.reassignment } log r ∧ patient.fault? = none ∧
      ∃ p ∈ (plan (r.view none (.ofSeconds 90)) (rallying.table 0)).plans, p.trigger = .recovery ∧
        p.changes.length = 2 ∧ Promotes r.settings log (.ofSeconds 90) (rallying.table 0) p.changes := by
  have ran : (watched [0, 30, 60, 90]).any (fun r : Reassigner => decide (∃ p ∈
      (plan (r.view none (.ofSeconds 90)) (rallying.table 0)).plans,
        p.trigger = .recovery ∧ p.changes.length = 2)) = true := by decide +kernel
  obtain ⟨r, watch, planned⟩ := (Option.any_eq_true ..).mp ran
  obtain ⟨p, hp, trigger, both⟩ := of_decide_eq_true planned
  obtain ⟨log, reached⟩ := reached_watched watch
  have valid : patient.fault? = none := Option.isNone_iff_eq_none.mp (by decide +kernel)
  have ordered : (rallying.table 0).Ordered := by unfold Table.Ordered; decide +kernel
  have sound := recoveries_sound valid (by decide) (by decide) reached none (.ofSeconds 90) ordered
  exact ⟨log, r, reached, valid, p, hp, trigger, both, sound.2.1 p hp trigger⟩

end Reassignment

end FleetCoordination
