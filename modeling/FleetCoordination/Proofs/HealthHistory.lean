import FleetCoordination.HealthHistory
import FleetCoordination.Proofs.LastItems
import FleetCoordination.Proofs.Ring
/-!
# What a history tells

A history keeps six samples and a few marks, yet it tells of all the samples that it was
given what their whole list would: the last risks, and how long and since when the last
ones have been unhealthy or recovering.
-/
namespace FleetCoordination

/-! ## Endings of a list -/

/-- Whether some items are the longest ending of a list that passes throughout. -/
structure LongestEnding {α : Type} (passes : α → Prop) (xs ending : List α) : Prop where
  suffix : ending <:+ xs
  forall_mem : ∀ x ∈ ending, passes x
  longest : ∀ ys, ys <:+ xs → (∀ y ∈ ys, passes y) → ys <:+ ending

theorem longestEnding_rtakeWhile {α : Type} (p : α → Prop) [DecidablePred p] (xs : List α) :
    LongestEnding p xs (xs.rtakeWhile fun x => decide (p x)) := by
  refine ⟨List.rtakeWhile_suffix _ xs, fun x hx => ?_, fun ys suffix all => ?_⟩
  · exact of_decide_eq_true (List.mem_rtakeWhile_imp (p := fun x => decide (p x)) hx)
  · obtain ⟨before, rfl⟩ := suffix
    have kept : (before ++ ys).rtakeWhile (fun x => decide (p x)) =
        before.rtakeWhile (fun x => decide (p x)) ++ ys := by
      rw [List.rtakeWhile, List.reverse_append, List.takeWhile_append_of_pos (by simpa using all),
        List.reverse_append, List.reverse_reverse, List.rtakeWhile]
    rw [kept]
    exact List.suffix_append _ ys

/-! ## Histories of samples -/

/-- The risk of an agent at a time. -/
structure Sample where
  risk : Float
  time : Timestamp

namespace HealthHistory
variable (t : HealthThresholds) (samples : List Sample)

/-- The history that some samples make, oldest first. -/
def ofSamples : HealthHistory := samples.foldl (fun h s => h.record s.risk s.time) { thresholds := t }

/-- The unhealthy samples that others have not followed. -/
def unhealthyEnd : List Sample := samples.rtakeWhile fun s => t.isUnhealthy s.risk

def recoveringEnd : List Sample := samples.rtakeWhile fun s => t.isRecovering s.risk

theorem longestEnding_unhealthyEnd : LongestEnding (fun s => t.unhealthy ≤ s.risk) samples (unhealthyEnd t samples) :=
  longestEnding_rtakeWhile (fun s : Sample => t.unhealthy ≤ s.risk) samples

theorem longestEnding_recoveringEnd : LongestEnding (fun s => s.risk < t.recovery) samples (recoveringEnd t samples) :=
  longestEnding_rtakeWhile (fun s : Sample => s.risk < t.recovery) samples

theorem ofSamples_concat (s : Sample) : ofSamples t (samples ++ [s]) = (ofSamples t samples).record s.risk s.time := by
  simp [ofSamples]

@[simp] theorem thresholds_ofSamples : (ofSamples t samples).thresholds = t := by
  induction samples using List.reverseRecOn with
  | nil => rfl
  | append_singleton samples s ih => rwa [ofSamples_concat]

theorem samples_ofSamples : (ofSamples t samples).samples = (samples.map (·.risk)).rtake retained := by
  induction samples using List.reverseRecOn with
  | nil => rfl
  | append_singleton samples s ih =>
    have pushed : (ofSamples t (samples ++ [s])).samples =
        ((ofSamples t samples).samples ++ [s.risk]).rtake retained := by
      rw [ofSamples_concat]
      exact (ofSamples t samples).recent.toList_push s.risk
    rw [pushed, ih, rtake_rtake_concat, List.map_append, List.map_singleton]

theorem latest_ofSamples : (ofSamples t samples).latest = (samples.map (·.risk)).getLast? := by
  have last : (ofSamples t samples).latest = (ofSamples t samples).samples.getLast? := Ring.last?_eq _
  rw [last, samples_ofSamples, getLast?_rtake (by decide)]

theorem streak_ofSamples : (ofSamples t samples).streak = (unhealthyEnd t samples).length := by
  induction samples using List.reverseRecOn with
  | nil => rfl
  | append_singleton samples s ih =>
    simp only [ofSamples_concat, record, thresholds_ofSamples, unhealthyEnd, List.rtakeWhile_concat]
    split <;> simp [ih, unhealthyEnd]

theorem streakStart_ofSamples : (ofSamples t samples).streakStart = (unhealthyEnd t samples).head?.map (·.time) := by
  induction samples using List.reverseRecOn with
  | nil => rfl
  | append_singleton samples s ih =>
    simp only [ofSamples_concat, record, thresholds_ofSamples, streak_ofSamples, ih, unhealthyEnd,
      List.rtakeWhile_concat]
    split
    · cases samples.rtakeWhile _ <;> rfl
    · rfl

theorem recoveringSince_ofSamples :
    (ofSamples t samples).recoveringSince = (recoveringEnd t samples).head?.map (·.time) := by
  induction samples using List.reverseRecOn with
  | nil => rfl
  | append_singleton samples s ih =>
    simp only [ofSamples_concat, record, thresholds_ofSamples, ih, recoveringEnd, List.rtakeWhile_concat]
    split
    · cases samples.rtakeWhile _ <;> rfl
    · rfl

theorem recoveredFor_ofSamples (now : Timestamp) :
    (ofSamples t samples).recoveredFor now = (recoveringEnd t samples).head?.map fun s => now.since s.time := by
  rw [recoveredFor, recoveringSince_ofSamples, Option.map_map]
  rfl

/-- The recovery that a history tells of began with a sample, and all since are recovering. -/
theorem exists_recovering {now : Timestamp} {duration : Int}
    (h : (ofSamples t samples).recoveredFor now = some duration) : ∃ before s after, samples = before ++ s :: after ∧
      now.since s.time = duration ∧ ∀ x ∈ s :: after, x.risk < t.recovery := by
  rw [recoveredFor_ofSamples] at h
  obtain ⟨s, first, duration⟩ := Option.map_eq_some_iff.mp h
  have ending := longestEnding_recoveringEnd t samples
  obtain ⟨after, split⟩ : ∃ after, recoveringEnd t samples = s :: after :=
    ⟨_, (List.cons_head?_tail first).symm⟩
  obtain ⟨before, whole⟩ : recoveringEnd t samples <:+ samples := ending.suffix
  refine ⟨before, s, after, split ▸ whole.symm, duration, fun x hx => ending.forall_mem x ?_⟩
  exact split ▸ hx

/-- Whatever the thresholds, a history that has been given some samples tells the last six risks
and the very last; how many samples at the end are unhealthy and since when; since when those at
the end are recovering; and the class that comes of all these. -/
theorem history_refines_samples : ∃ unhealthy recovering : List Sample,
    LongestEnding (fun s => t.unhealthy ≤ s.risk) samples unhealthy ∧
      LongestEnding (fun s => s.risk < t.recovery) samples recovering ∧
      let h := ofSamples t samples
      let risks := samples.map (·.risk)
      h.samples = risks.rtake (min 6 samples.length) ∧ h.latest = risks.getLast? ∧
        h.streak = unhealthy.length ∧ h.streakStart = unhealthy.head?.map (·.time) ∧
        (∀ now, h.recoveredFor now = recovering.head?.map fun s => now.since s.time) ∧
        h.classify =
          if t.degraded < unhealthy.length then .critical
          else if unhealthy.length = t.degraded then .degraded
          else if ∃ risk ∈ risks.rtake 6, t.unhealthy ≤ risk then .intermittent
          else .healthy := by
  have last : retained = 6 := rfl
  have risks : (samples.map (·.risk)).rtake 6 = (samples.map (·.risk)).rtake (min 6 samples.length) := by
    simp only [List.rtake, List.length_map]
    congr 1
    omega
  refine ⟨_, _, longestEnding_unhealthyEnd t samples, longestEnding_recoveringEnd t samples, ?_, latest_ofSamples ..,
    streak_ofSamples .., streakStart_ofSamples .., fun now => recoveredFor_ofSamples .., ?_⟩
  · rw [samples_ofSamples, last, risks]
  · simp only [classify, thresholds_ofSamples, streak_ofSamples, samples_ofSamples, last, List.any_eq_true,
      HealthThresholds.isUnhealthy, decide_eq_true_eq]

end HealthHistory

end FleetCoordination
