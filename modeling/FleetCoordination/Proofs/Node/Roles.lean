import FleetCoordination.Proofs.Node.Cycle
/-!
# Roles of a node

The roles that a cycle leaves are those it was called on, as its committed attempts have changed
them, if no other commit is applied meanwhile.
-/
namespace FleetCoordination

theorem Engine.fit_create {κ : Type} (mine : κ → Bool) (self : AgentId) (settings : ConsensusSettings) (fallback : Bool)
    (roles : RoleTable) :
    Engine.Fit mine { Engine.create self settings fallback with
      ledger := { Ledger.ofCapacity settings.dedupCapacity with roles } } :=
  ⟨List.nodup_nil, by simp [Engine.create], List.nodup_nil, Nat.le_max_right .., rfl⟩

namespace Node
open Reassignment

theorem wired_create {settings : Settings} {origin : Node} (created : Node.create settings = .ok origin)
    (roles : RoleTable) : Wired none [] (origin.withRoles roles) := by
  unfold create at created
  split at created
  · cases created
  split at created
  · cases created
  · cases created
    exact ⟨Engine.fit_create .., by simp, .resting rfl (by simp [withRoles]) (Nat.zero_le _)⟩

/-- Whether what a step reports of a cycle, and the roles it leaves, agree with the roles that the
cycle was opened on. -/
def Move.Accounts (m : Move) (roles : RoleTable) : Prop :=
  ∀ report ∈ reports m.outputs, report.ran = true → m.after.roles = enacted roles report.attempts

/-- A stretch of a run in which a cycle waits for its turn and is then opened, with no commit applied
but those of its proposals. -/
structure Stretch (wait : List Move) (s : Move) (run : List Move) : Prop where
  still : ∀ m ∈ wait, m.marked = []
  opens : s.Opens
  alone : ∀ m ∈ run, ¬m.Opens
  quiet : ∀ m ∈ run, m.Quiet

theorem Stretch.init {wait run : List Move} {s m : Move} (h : Stretch wait s (run ++ [m])) :
    Stretch wait s run ∧ ¬m.Opens ∧ m.Quiet := by
  have last : m ∈ run ++ [m] := List.mem_append_right _ (List.mem_singleton_self m)
  exact ⟨⟨h.still, h.opens, fun m hm => h.alone m (List.mem_append_left _ hm),
    fun m hm => h.quiet m (List.mem_append_left _ hm)⟩, h.alone m last, h.quiet m last⟩

section Runs
variable {settings : Settings} {origin n : Node} {table : RoleTable} {moves past wait run : List Move}
  {agenda : List Input} {s : Move}

theorem Run.wired (h : Run (origin.withRoles table) moves agenda n) (created : Node.create settings = .ok origin) :
    Wired none agenda n := by
  induction h with
  | start => exact wired_create created table
  | @step _ _ _ n _ s i taken ih =>
    by_cases opens : (Move.mk n s i).Opens
    · exact ((ih.take taken).opens s opens).1.forget
    · exact ((ih.take taken).moves s opens nofun).1
  | elapse past evaluations ih => exact ih.elapse evaluations

/-- From its opening on, the roles are accounted for by the attempts of a cycle. -/
theorem Run.accounts (h : Run (origin.withRoles table) moves agenda n) (created : Node.create settings = .ok origin)
    (split : moves = past ++ s :: run) (stretch : Stretch wait s run) :
    Wired (some s.before.roles) agenda n ∧ ∀ m ∈ s :: run, m.Accounts s.before.roles := by
  induction h generalizing run with
  | start => simp at split
  | step before site taken ih =>
    obtain ⟨rfl, rfl, rfl⟩ | ⟨run, rfl, earlier⟩ := split_of_snoc split
    · obtain ⟨wired, accounts⟩ := ((before.wired created).take taken).opens site stretch.opens
      exact ⟨wired, List.forall_mem_singleton.mpr fun report hr _ => accounts report hr⟩
    · obtain ⟨stretch, alone, quiet⟩ := stretch.init
      obtain ⟨since, accounts⟩ := ih earlier stretch
      obtain ⟨wired, last⟩ := (since.take taken).moves site alone fun _ => quiet
      refine ⟨wired, fun m hm => ?_⟩
      rw [← List.cons_append] at hm
      rcases List.mem_append.mp hm with old | new
      · exact accounts m old
      · rw [List.mem_singleton.mp new]
        exact fun report hr ran => last report hr ran _ rfl
  | elapse before evaluations ih =>
    obtain ⟨wired, accounts⟩ := ih split stretch
    exact ⟨wired.elapse evaluations, accounts⟩

/-- Steps that mark no id executed change no role. -/
theorem Run.still (h : Run (origin.withRoles table) moves agenda n) (created : Node.create settings = .ok origin)
    (split : moves = past ++ s :: run) (unmarked : ∀ m ∈ s :: run, m.marked = []) : n.roles = s.before.roles := by
  induction h generalizing run with
  | start => simp at split
  | step before site taken ih =>
    have still := ((before.wired created).take taken).still site
    obtain ⟨rfl, rfl, rfl⟩ | ⟨run, rfl, earlier⟩ := split_of_snoc split
    · exact still (unmarked _ List.mem_cons_self)
    · rw [← List.cons_append] at unmarked
      rw [still (unmarked _ (List.mem_append_right _ (List.mem_singleton_self _)))]
      exact ih earlier fun m hm => unmarked m (List.mem_append_left _ hm)
  | elapse before evaluations ih => exact ih split unmarked

/-- While a cycle waits for its turn, the roles stay as they are. -/
theorem Run.waits (h : Run (origin.withRoles table) moves agenda n) (created : Node.create settings = .ok origin)
    (split : moves = past ++ (wait ++ s :: run)) (unmarked : ∀ m ∈ wait, m.marked = []) {b : Move}
    (hb : b ∈ wait ++ [s]) : s.before.roles = b.before.roles := by
  rcases List.mem_append.mp hb with waits | last
  · obtain ⟨first, later, rfl⟩ := List.append_of_mem waits
    rw [← List.append_assoc] at split
    obtain ⟨agenda, before⟩ := h.until split
    rw [← List.append_assoc] at before
    exact before.still created rfl fun m hm => unmarked m (List.mem_append_right _ hm)
  · rw [List.mem_singleton.mp last]

/-- The roles that a cycle leaves are those of its call, with the changes of its committed attempts
made in order; an agent that none of these names keeps its role. A cycle of an agent that does not
lead changes nothing and proposes nothing. -/
theorem roles_by_commits (created : Node.create settings = .ok origin)
    (h : Run (origin.withRoles table) moves agenda n) :
    (∀ past wait s run, moves = past ++ (wait ++ s :: run) → Stretch wait s run →
      ∀ b ∈ wait ++ [s], ∀ m ∈ s :: run, ∀ job report,
        .finished job (.report report) ∈ m.outputs → report.ran = true →
          m.after.roles = enacted b.before.roles report.attempts ∧
          ∀ a, (∀ x ∈ report.attempts, x.committed = true → ∀ c ∈ x.changes, c.agent ≠ a) →
            m.after.roles.get? a = b.before.roles.get? a) ∧
    ∀ (s : Site) job now, s.leadership.isLeader = false →
      n.step s (.review job now) = (n, [.finished job (.report {})]) := by
  refine ⟨fun past wait s run split stretch b hb m hm job report told ran => ?_, fun s job now follows =>
    n.review_of_follower follows job now⟩
  have reported : report ∈ reports m.outputs := List.mem_filterMap.mpr ⟨_, told, rfl⟩
  have roles := (h.accounts created (List.append_assoc .. ▸ split) stretch).2 m hm report reported ran
  rw [h.waits created split stretch.still hb] at roles
  exact ⟨roles, fun a unnamed => roles ▸ get?_enacted_ne unnamed⟩

end Runs

/-! ## A lone leader -/

/-- Settings by which an agent that is well moves up at once. -/
def prompt : Settings := { node := { id := "A" }, reassignment := { recoveryWindowSecs := 0 } }

/-- A node of these settings on standby. -/
def standby : Node :=
  { engine := Engine.create "A" {} true
    orchestrator :=
      { self := "A", settings := {}, features := {}, defaultTimeout := 5000
        safety := { model := SafetyModel.standard, enabled := true }, arbiter := { weights := WeightsOf.standard } }
    reassigner := { self := "A", settings := { recoveryWindowSecs := 0 } } }

theorem create_prompt : Node.create prompt = .ok standby := by
  have sound : (WeightsOf.standard : Weights).fault? = none := by decide +kernel
  simp only [create, Arbitration.Arbiter.ofWeights, prompt, sound]
  rfl

def spare : RoleTable := ⟨[("A", .standby)]⟩

/-- No other agent is alive, and the evaluator takes its time. -/
def lonely : Site :=
  { world := World.register {} "A", leadership := .fixed "A" (some "A") 1, evaluator := .delayed 5 .grant }

def reviewing : Move := ⟨standby.withRoles spare, lonely, .review 0 (.ofSeconds 0)⟩
def calling : Move := ⟨reviewing.after, lonely, .engine (.posted (.proposal (.ofNat 1)) (.ok ()))⟩
def voting : Move := ⟨calling.after, lonely, .engine (.evaluated (.proposer (.ofNat 1)) .grant)⟩
def noting (result : Except Fault ProposalResult) : Move := ⟨voting.after, lonely, .raised result⟩

/-- A node whose rounds are carried by one vote. -/
def carried (n : Node) : Node :=
  { n with engine := { n.engine with
      rounds := n.engine.rounds.map fun r => { r with ballot := { r.ballot with quorum := 1 } } } }

theorem after_calling : calling.after = calling.after.carried := by
  -- a share is a float, and what it rounds up to is not computed here
  have quorum : Quorum.size (2.0 / 3.0 : Float) 1 = 1 :=
    Nat.le_antisymm (Quorum.size_le _ (Nat.le_refl 1)) (Quorum.one_le_size ..)
  have quorums : calling.after.engine.rounds.map (·.ballot.quorum) = [1] :=
    (show _ = [Quorum.size (2.0 / 3.0 : Float) 1] from rfl).trans (by rw [quorum])
  have same : calling.after.engine.rounds.map (fun r => { r with ballot := { r.ballot with quorum := 1 } }) =
      calling.after.engine.rounds := by
    refine (List.map_congr_left fun r hr => ?_).trans (List.map_id _)
    have one : r.ballot.quorum = 1 := by simpa [quorums] using List.mem_map_of_mem (f := (·.ballot.quorum)) hr
    rw [← one]
    rfl
  rw [carried, same]

/-- The leader moves up by its own vote. -/
theorem promoted : ∃ result, .next (.raised result) ∈ voting.outputs ∧ (noting result).marked = [] ∧
    ∃ job report, .finished job (.report report) ∈ (noting result).outputs ∧ report.ran = true ∧
      (noting result).after.roles.get? "A" = some .backup := by
  have ran : (dues (voting.outputs.filterMap next?)).any (fun result =>
      (noting result).marked.isEmpty && (reports (noting result).outputs).any fun report =>
        report.ran && decide ((noting result).after.roles.get? "A" = some .backup)) = true := by
    unfold noting voting
    rw [after_calling]
    decide +kernel
  obtain ⟨result, due, ended⟩ := List.any_eq_true.mp ran
  obtain ⟨o, told, raised⟩ := List.mem_filterMap.mp ((mem_dues _).mp due)
  have next : o = .next (.raised result) := by
    cases o <;> cases raised
    rfl
  obtain ⟨unmarked, ended⟩ := (Bool.and_eq_true ..).mp ended
  obtain ⟨report, reported, done⟩ := List.any_eq_true.mp ended
  obtain ⟨job, finished⟩ := (mem_reports _).mp reported
  obtain ⟨ran, held⟩ := (Bool.and_eq_true ..).mp done
  exact ⟨result, next ▸ told, List.isEmpty_iff.mp unmarked, job, report, finished, ran, of_decide_eq_true held⟩

/-- The cycle of the lone leader has the one committed attempt that promotes it. -/
theorem roles_by_commits_promoted : ∃ result agenda n job report, Node.create prompt = .ok standby ∧
    Run (standby.withRoles spare) [reviewing, calling, voting, noting result] agenda n ∧
      Stretch [] reviewing [calling, voting, noting result] ∧ .finished job (.report report) ∈ (noting result).outputs ∧
      (noting result).after.roles.get? "A" = some .backup ∧
      (noting result).after.roles = enacted spare report.attempts := by
  obtain ⟨result, told, unmarked, job, report, reported, ran, held⟩ := promoted
  have first : Run (standby.withRoles spare) [reviewing] (tasks reviewing.outputs) reviewing.after :=
    Run.start.step lonely (i := reviewing.input) (.outside trivial)
  have posted : tasks reviewing.outputs = [calling.input] := rfl
  have second : Run (standby.withRoles spare) [reviewing, calling] ([] ++ tasks calling.outputs) calling.after :=
    first.step lonely (.inside (.of_eq posted))
  have third : Run (standby.withRoles spare) [reviewing, calling, voting]
      ([] ++ tasks calling.outputs ++ tasks voting.outputs) voting.after :=
    second.step lonely (.outside (free_evaluated _ _))
  have left : .raised result ∈ [] ++ tasks calling.outputs ++ tasks voting.outputs :=
    List.mem_append_right _ (List.mem_filterMap.mpr ⟨_, told, rfl⟩)
  obtain ⟨before, after, eq⟩ := List.append_of_mem left
  have due : ([] ++ tasks calling.outputs ++ tasks voting.outputs).Perm (.raised result :: (before ++ after)) :=
    eq ▸ List.perm_middle
  have fourth : Run (standby.withRoles spare) [reviewing, calling, voting, noting result] _ (noting result).after :=
    third.step lonely (.inside due)
  have stretch : Stretch [] reviewing [calling, voting, noting result] := {
    still := by simp
    opens := ⟨by decide, rfl⟩
    alone := by simp [Move.Opens, calling, voting, noting]
    quiet := by
      rw [List.forall_mem_cons, List.forall_mem_cons, List.forall_mem_singleton]
      have unmarked_ : calling.marked = [] := rfl
      exact ⟨fun marked => (marked unmarked_).elim, fun _ => ⟨result, told⟩, fun marked => (marked unmarked).elim⟩ }
  have accounts := (roles_by_commits create_prompt fourth).1 [] [] reviewing _ rfl stretch reviewing (by simp)
    (noting result) (by simp) job report reported ran
  exact ⟨result, _, _, job, report, create_prompt, fourth, stretch, reported, held, accounts.1⟩

end Node

end FleetCoordination
