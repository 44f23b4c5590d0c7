import Mathlib.Data.List.Nodup
import Mathlib.Data.List.Perm.Subperm
import FleetCoordination.Propagation
import FleetCoordination.Proofs.Scalar.Share
/-!
# Acknowledgements of a propagation

Of the acknowledgements that are read, those of targets that have applied the action are noted, each
target once. Once all are read, or all targets are noted, the others are missing, and the report and
the record of every target follow from that.
-/
namespace FleetCoordination

/-! ## Records -/

/-- A record after one more propagation. -/
def AckCount.bump (c : AckCount) (acknowledged : Bool) : AckCount :=
  { expected := c.expected + 1, acknowledged := c.acknowledged + acknowledged.toNat }

namespace ComplianceTracker

theorem get?_record (t : ComplianceTracker) (agent a : AgentId) (acknowledged : Bool) :
    (t.record agent acknowledged).counts.get? a =
      if a = agent then some ((t.count agent).bump acknowledged) else t.counts.get? a := by
  rw [record, Table.get?_insert]
  cases acknowledged <;> rfl

/-- Each agent of a list is recorded once, and no other. -/
theorem get?_foldl_record {agents : List AgentId} (once : agents.Nodup) (t : ComplianceTracker)
    (acknowledged : AgentId → Bool) (a : AgentId) :
    (agents.foldl (fun t a => t.record a (acknowledged a)) t).counts.get? a =
      if a ∈ agents then some ((t.count a).bump (acknowledged a)) else t.counts.get? a := by
  induction agents generalizing t with
  | nil => rfl
  | cons b rest ih =>
    obtain ⟨new, once⟩ := List.nodup_cons.mp once
    rw [List.foldl_cons, ih once, count, get?_record]
    by_cases same : a = b
    · subst same
      simp [new]
    · simp [same, count]

end ComplianceTracker

/-- Whether an agent says in some acknowledgements that it has applied the action. -/
def Applied (acks : List ActionAck) (agent : AgentId) : Prop := ∃ x ∈ acks, x.agent = agent ∧ x.applied = true

@[simp] theorem applied_append {xs ys : List ActionAck} {a : AgentId} :
    Applied (xs ++ ys) a ↔ Applied xs a ∨ Applied ys a := by
  simp [Applied, or_and_right, exists_or]

@[simp] theorem applied_singleton {x : ActionAck} {a : AgentId} :
    Applied [x] a ↔ x.agent = a ∧ x.applied = true := by
  simp [Applied]

namespace Propagation
variable {κ : Type} {p : Propagation κ}

/-- What a propagation holds of the acknowledgements that it has taken: some wait in its inbox, and of
the others those of targets that have applied the action are noted. -/
structure Holds (p : Propagation κ) (acks : List ActionAck) : Prop where
  read : ∃ read, acks = read ++ p.inbox ∧ ∀ a, a ∈ p.acknowledged ↔ a ∈ p.targets ∧ Applied read a
  once : p.acknowledged.Nodup

theorem mem_acknowledged_note (p : Propagation κ) (x : ActionAck) (a : AgentId) :
    a ∈ (p.note x).acknowledged ↔ a ∈ p.acknowledged ∨ a ∈ p.targets ∧ x.agent = a ∧ x.applied = true := by
  unfold note
  split
  · next noted =>
    simp only [Bool.and_eq_true, decide_eq_true_eq] at noted
    rw [List.mem_append, List.mem_singleton]
    constructor
    · rintro (old | rfl)
      · exact .inl old
      · exact .inr ⟨noted.1.2, rfl, noted.1.1⟩
    · rintro (old | ⟨-, rfl, -⟩)
      · exact .inl old
      · exact .inr rfl
  · next passed =>
    refine ⟨.inl, ?_⟩
    rintro (old | ⟨target, rfl, applied⟩)
    · exact old
    · simpa [applied, target] using passed

theorem nodup_acknowledged_note (p : Propagation κ) (once : p.acknowledged.Nodup) (x : ActionAck) :
    (p.note x).acknowledged.Nodup := by
  unfold note
  split
  · next noted =>
    simp only [Bool.and_eq_true, decide_eq_true_eq] at noted
    exact once.append (List.nodup_singleton _) (by simpa using noted.2)
  · exact once

@[simp] theorem targets_note (p : Propagation κ) (x : ActionAck) : (p.note x).targets = p.targets := by
  unfold note
  split <;> rfl

@[simp] theorem inbox_note (p : Propagation κ) (x : ActionAck) : (p.note x).inbox = p.inbox := by
  unfold note
  split <;> rfl

namespace Holds
variable {acks : List ActionAck}

theorem offer (h : p.Holds acks) (x : ActionAck) :
    (p.offer x).Holds (acks ++ if p.inbox.length < p.room then [x] else []) := by
  unfold Propagation.offer
  split
  · obtain ⟨⟨read, rfl, noted⟩, once⟩ := h
    exact ⟨⟨read, by simp, noted⟩, once⟩
  · rwa [List.append_nil]

theorem next (h : p.Holds acks) : (p.read?.getD p).Holds acks := by
  obtain ⟨⟨read, rfl, noted⟩, once⟩ := h
  unfold Propagation.read?
  split
  · exact ⟨⟨read, rfl, noted⟩, once⟩
  · next x rest waits =>
    rw [Option.getD_some, waits]
    refine ⟨⟨read ++ [x], by simp, fun a => ?_⟩, nodup_acknowledged_note { p with inbox := rest } once x⟩
    rw [mem_acknowledged_note, targets_note, applied_append, applied_singleton]
    exact (or_congr_left (noted a)).trans and_or_left.symm

theorem subset (h : p.Holds acks) : p.acknowledged ⊆ p.targets := by
  obtain ⟨⟨read, -, noted⟩, -⟩ := h
  exact fun a ha => ((noted a).mp ha).1

/-- A propagation that is over misses the targets that have not said that they applied the action. -/
theorem mem_missing (h : p.Holds acks) {now : Nat} (ended : p.settled now = true) {a : AgentId} :
    a ∈ p.missing ↔ a ∈ p.targets ∧ ¬Applied acks a := by
  have sub := h.subset
  obtain ⟨⟨read, rfl, noted⟩, once⟩ := h
  simp only [settled, complete, Bool.and_eq_true, Bool.or_eq_true, decide_eq_true_eq, List.isEmpty_iff] at ended
  rw [missing, List.mem_filter, decide_eq_true_eq, noted, not_and, applied_append]
  obtain ⟨-, all | ⟨empty, -⟩⟩ := ended
  · have reached : p.targets ⊆ p.acknowledged :=
      ((List.subperm_of_subset once sub).perm_of_length_le all).symm.subset
    constructor
    · rintro ⟨target, silent⟩
      exact (silent target ((noted a).mp (reached target)).2).elim
    · rintro ⟨target, silent⟩
      exact (silent (.inl ((noted a).mp (reached target)).2)).elim
  · simp only [empty, Applied, List.not_mem_nil, false_and, exists_false, or_false]
    exact and_congr_right fun target => ⟨fun h => h target, fun h _ => h⟩

/-- Every target is noted or missing. -/
theorem length_add (h : p.Holds acks) (targets : p.targets.Nodup) :
    p.acknowledged.length + p.missing.length = p.targets.length := by
  have noted : (p.targets.filter (decide <| · ∈ p.acknowledged)).Perm p.acknowledged := by
    refine (List.perm_ext_iff_of_nodup (targets.filter _) h.once).mpr fun a => ?_
    rw [List.mem_filter, decide_eq_true_eq]
    exact ⟨And.right, fun ha => ⟨h.subset ha, ha⟩⟩
  have split := List.length_eq_length_filter_add (l := p.targets) (decide <| · ∈ p.acknowledged)
  have missing : p.missing = p.targets.filter fun a => !decide (a ∈ p.acknowledged) := by
    simp only [Propagation.missing, decide_not]
  rw [split, ← missing, noted.length_eq]

end Holds

/-- A propagation that is over misses nobody, unless its time is up. -/
theorem Holds.late {acks : List ActionAck} (h : p.Holds acks) (targets : p.targets.Nodup) {now : Nat}
    (ended : p.settled now = true) : p.missing = [] ∨ p.deadline ≤ now := by
  have counted := h.length_add targets
  simp only [settled, complete, Bool.and_eq_true, Bool.or_eq_true, decide_eq_true_eq] at ended
  obtain ⟨-, all | ⟨-, late⟩⟩ := ended
  · exact .inl (List.length_eq_zero_iff.mp (by omega))
  · exact .inr late

/-- What is recorded of each peer is whether it is missing. -/
theorem get?_track (targets : p.targets.Nodup) (t : ComplianceTracker) (a : AgentId) :
    (p.track t).counts.get? a =
      if a ∈ p.targets then some ((t.count a).bump (decide (a ∉ p.missing))) else t.counts.get? a := by
  rw [track, ComplianceTracker.get?_foldl_record targets]
  by_cases target : a ∈ p.targets
  · have kept : a ∉ p.missing ↔ a ∈ p.acknowledged := by simp [missing, target]
    simp only [if_pos target, kept]
  · rw [if_neg target, if_neg target]

/-! ## Reports -/

section Report
variable {acks : List ActionAck} (h : p.Holds acks) (targets : p.targets.Nodup)
include h targets

theorem acknowledged_report {α : Type} [Scalar α] {ok : Bool} (own : p.own = some ok) :
    (p.report : PropagationReportOf α).acknowledged = p.targets.length - p.missing.length + ok.toNat := by
  have counted := h.length_add targets
  have added : (if p.own = some true then 1 else 0) = ok.toNat := by
    rw [own]
    cases ok <;> rfl
  simp only [report, added]
  omega

/-- A report counts no more than it expects, and all of them just if nobody is missing. -/
theorem acknowledged_report_le {α : Type} [Scalar α] {ok : Bool} (own : p.own = some ok) :
    (p.report : PropagationReportOf α).acknowledged ≤ p.targets.length + 1 ∧
      ((p.report : PropagationReportOf α).acknowledged = p.targets.length + 1 ↔ p.missing = [] ∧ ok = true) := by
  have counted := h.length_add targets
  rw [acknowledged_report h targets own, ← List.length_eq_zero_iff]
  cases ok with
  | true =>
    simp only [Bool.toNat_true, and_true]
    omega
  | false =>
    simp only [Bool.toNat_false, Bool.false_eq_true, and_false, iff_false]
    omega

end Report

end Propagation

end FleetCoordination
