import Mathlib.Data.Finset.Card
import FleetCoordination.ExecutedWindow
import FleetCoordination.Proofs.LastItems
/-!
# What a window forgets

A window holds the last ids that were entered. An id is entered only while the window does
not hold it, so that between two entries of one id there are as many others as it holds.
-/
namespace FleetCoordination

/-- A list that ends in `x`, split at one of its members. -/
theorem split_of_snoc {α : Type} {xs before after : List α} {x y : α} (split : xs ++ [x] = before ++ y :: after) :
    (xs = before ∧ x = y ∧ after = []) ∨ ∃ init, after = init ++ [x] ∧ xs = before ++ y :: init := by
  rcases List.eq_nil_or_concat' after with rfl | ⟨init, last, rfl⟩
  · obtain ⟨same, last⟩ := List.append_inj' split rfl
    exact .inl ⟨same, List.singleton_inj.mp last, rfl⟩
  · rw [← List.cons_append, ← List.append_assoc] at split
    obtain ⟨same, last⟩ := List.append_inj' split rfl
    exact .inr ⟨init, by rw [List.singleton_inj.mp last], same⟩

namespace ExecutedWindow

/-! ## Entries apart from each other -/

/-- Whether no item of a list is among the `n` before it. -/
def Spaced {α : Type} (n : Nat) (xs : List α) : Prop :=
  ∀ before x after, xs = before ++ x :: after → x ∉ before.rtake n

section Spaced
variable {α : Type} {n : Nat} {x : α} {xs ys : List α}

theorem Spaced.nil : Spaced n ([] : List α) := by
  intro before x after e
  simp at e

theorem Spaced.snoc (h : Spaced n xs) (new : x ∉ xs.rtake n) : Spaced n (xs ++ [x]) := by
  intro before y after e
  obtain ⟨rfl, rfl, -⟩ | ⟨init, -, earlier⟩ := split_of_snoc e
  · exact new
  · exact h before y init earlier

theorem Spaced.init (h : Spaced n (xs ++ ys)) : Spaced n xs :=
  fun before x after e => h before x (after ++ ys) (by simp [e])

theorem Spaced.nodup (h : Spaced n xs) : (xs.rtake n).Nodup := by
  induction xs using List.reverseRecOn with
  | nil => simp
  | append_singleton xs x ih =>
    cases n with
    | zero => simp
    | succ n =>
      have old := ih h.init
      have new : x ∉ xs.rtake (n + 1) := h xs x [] rfl
      have shorter : xs.rtake n <:+ xs.rtake (n + 1) := by
        have e := rtake_rtake n (n + 1) xs
        rw [min_eq_left n.le_succ] at e
        exact e ▸ rtake_suffix ..
      rw [List.rtake_concat_succ, List.nodup_append]
      refine ⟨old.sublist shorter.sublist, List.nodup_singleton x, ?_⟩
      intro y hy z hz e
      rw [List.mem_singleton.mp hz] at e
      exact new (shorter.subset (e ▸ hy))

/-- An item that has left the last `n` was followed by `n` others. -/
theorem Spaced.others [DecidableEq α] (h : Spaced n (xs ++ x :: ys)) (gone : x ∉ (xs ++ x :: ys).rtake n) :
    ∃ others : Finset α, n ≤ others.card ∧ ∀ y ∈ others, y ≠ x ∧ y ∈ ys := by
  have long : n ≤ ys.length := by
    by_contra short
    exact gone (mem_rtake (by omega))
  have recent : (xs ++ x :: ys).rtake n = ys.rtake n := by
    rw [← List.singleton_append, ← List.append_assoc, rtake_append long]
  have nodup := h.nodup
  rw [recent] at nodup gone
  refine ⟨(ys.rtake n).toFinset, ?_, fun y hy => ?_⟩
  · rw [List.toFinset_card_of_nodup nodup, length_rtake, Nat.min_eq_left long]
  · have among := List.mem_toFinset.mp hy
    exact ⟨fun e => gone (e ▸ among), (rtake_suffix n ys).subset among⟩

/-- Whether an item was followed by `n` others since it came last. -/
def Outlived [DecidableEq α] (n : Nat) (xs : List α) (x : α) : Prop :=
  ∃ before since, xs = before ++ x :: since ∧ x ∉ since ∧ n ≤ since.toFinset.card

theorem Outlived.gone [DecidableEq α] (h : Outlived n xs x) : x ∉ xs.rtake n := by
  obtain ⟨before, since, rfl, absent, many⟩ := h
  have long : n ≤ since.length := Nat.le_trans many since.toFinset_card_le
  rw [← List.singleton_append, ← List.append_assoc, rtake_append long]
  exact fun hx => absent ((rtake_suffix n since).subset hx)

theorem Spaced.outlived [DecidableEq α] (h : Spaced n xs) (came : x ∈ xs) (gone : x ∉ xs.rtake n) :
    Outlived n xs x := by
  obtain ⟨since, before, split, last⟩ := List.eq_append_cons_of_mem (List.mem_reverse.mpr came)
  obtain rfl : xs = before.reverse ++ x :: since.reverse := by
    rw [← List.reverse_reverse xs, split]
    simp
  obtain ⟨others, many, differ⟩ := h.others gone
  have sub : others ⊆ since.reverse.toFinset := fun y hy => List.mem_toFinset.mpr (differ y hy).2
  exact ⟨_, _, rfl, by simpa using last, Nat.le_trans many (Finset.card_le_card sub)⟩

/-- Items that are not more than the spacing are there once each. -/
theorem Spaced.nodup_of_card [DecidableEq α] (h : Spaced n xs) (few : xs.toFinset.card ≤ n) : xs.Nodup := by
  induction xs using List.reverseRecOn with
  | nil => exact List.nodup_nil
  | append_singleton xs x ih =>
    have sub : xs.toFinset ⊆ (xs ++ [x]).toFinset := by simp
    have old := ih h.init (Nat.le_trans (Finset.card_le_card sub) few)
    have new : x ∉ xs := by
      intro again
      obtain ⟨before, after, rfl⟩ := List.append_of_mem again
      obtain ⟨others, many, differ⟩ := h.init.others (h _ x [] rfl)
      have absent : x ∉ others := fun hx => (differ x hx).1 rfl
      have more : others.cons x absent ⊆ (before ++ x :: after ++ [x]).toFinset := by
        intro y hy
        rcases Finset.mem_cons.mp hy with rfl | hy
        · simp
        · simp [(differ y hy).2]
      have card := Finset.card_le_card more
      rw [Finset.card_cons] at card
      omega
    rw [List.nodup_append]
    refine ⟨old, List.nodup_singleton x, fun y hy z hz e => new ?_⟩
    rwa [← List.mem_singleton.mp hz, ← e]

end Spaced

/-! ## Windows -/

/-- Whether a window holds the last of the ids that were entered, and refused those it held. -/
structure Remembers (w : ExecutedWindow) (entered : List ProposalId) : Prop where
  capacity : 1 ≤ w.capacity
  ids : w.ids = entered.rtake w.capacity
  spaced : Spaced w.capacity entered

section Remembers
variable {w : ExecutedWindow} {entered : List ProposalId} {id : ProposalId}

theorem remembers_ofCapacity (capacity : Nat) : (ofCapacity capacity).Remembers [] :=
  ⟨Nat.le_max_right .., by simp [ofCapacity], .nil⟩

theorem contains_iff_mem : w.contains id = true ↔ id ∈ w.ids := decide_eq_true_iff.trans w.same.mem_iff

theorem ids_push_eq_rtake (new : w.contains id = false) : (w.push id new).ids = (w.ids ++ [id]).rtake w.capacity :=
  evict_snd ..

theorem ids_push (capacity : 1 ≤ w.capacity) (new : w.contains id = false) :
    (w.push id new).ids = w.ids.rtake (w.capacity - 1) ++ [id] := by
  obtain ⟨n, e⟩ := Nat.exists_eq_add_of_le' capacity
  simp only [ids_push_eq_rtake, e, List.rtake_concat_succ, Nat.add_sub_cancel]

theorem Remembers.push (h : w.Remembers entered) (new : w.contains id = false) :
    (w.push id new).Remembers (entered ++ [id]) := by
  have absent : id ∉ entered.rtake w.capacity := h.ids ▸ not_mem_of_new new
  refine ⟨h.capacity, ?_, h.spaced.snoc absent⟩
  obtain ⟨n, e⟩ := Nat.exists_eq_add_of_le' h.capacity
  simp only [ids_push_eq_rtake, capacity_push, h.ids, e, List.rtake_concat_succ, rtake_rtake, min_eq_left n.le_succ]

theorem insert_of_new (new : w.contains id = false) : w.insert id = (w.push id new, true) := by
  simp [ExecutedWindow.insert, new]

@[simp] theorem capacity_insert (w : ExecutedWindow) (id : ProposalId) : (w.insert id).1.capacity = w.capacity := by
  unfold ExecutedWindow.insert
  split <;> rfl

/-- The ids that a window holds and an earlier one did not. -/
def gained (before after : ExecutedWindow) : List ProposalId := after.ids.filter fun id => !before.contains id

theorem gained_self (w : ExecutedWindow) : w.gained w = [] := by
  simp only [gained, List.filter_eq_nil_iff, Bool.not_eq_true', Bool.not_eq_false]
  exact fun id held => contains_iff_mem.mpr held

theorem gained_push (capacity : 1 ≤ w.capacity) (new : w.contains id = false) : w.gained (w.push id new) = [id] := by
  have old : (w.ids.rtake (w.capacity - 1)).filter (fun id => !w.contains id) = [] := by
    simp only [List.filter_eq_nil_iff, Bool.not_eq_true', Bool.not_eq_false]
    exact fun y hy => contains_iff_mem.mpr ((rtake_suffix _ w.ids).subset hy)
  simp [gained, ids_push capacity, old, new]

theorem Remembers.keep (h : w.Remembers entered) : w.Remembers (entered ++ w.gained w) := by
  rw [gained_self, List.append_nil]
  exact h

theorem Remembers.mem (h : w.Remembers entered) (held : w.contains id = true) : id ∈ entered :=
  (rtake_suffix _ _).subset (h.ids ▸ contains_iff_mem.mp held)

theorem Remembers.insert (h : w.Remembers entered) (id : ProposalId) :
    (w.insert id).1.Remembers (entered ++ w.gained (w.insert id).1) := by
  cases known : w.contains id with
  | true =>
    rw [insert_of_contains known]
    exact h.keep
  | false =>
    rw [insert_of_new known, gained_push h.capacity known]
    exact h.push known

theorem Remembers.mem_insert {id' : ProposalId} (h : w.Remembers entered) :
    id' ∈ entered ++ w.gained (w.insert id).1 ↔ id' ∈ entered ∨ id' = id := by
  cases known : w.contains id with
  | true =>
    rw [insert_of_contains known, gained_self, List.append_nil]
    exact ⟨.inl, fun old => old.elim (·) fun same => same ▸ h.mem known⟩
  | false =>
    rw [insert_of_new known, gained_push h.capacity known, List.mem_append, List.mem_singleton]

theorem contains_insert (capacity : 1 ≤ w.capacity) (id : ProposalId) : (w.insert id).1.contains id = true := by
  unfold ExecutedWindow.insert
  split
  · assumption
  · next new =>
    rw [contains_iff_mem, ids_push capacity (Bool.eq_false_iff.mpr new)]
    simp

theorem contains_of_insert {id' : ProposalId} (held : (w.insert id).1.contains id' = true) :
    w.contains id' = true ∨ id' = id := by
  unfold ExecutedWindow.insert at held
  split at held
  · exact .inl held
  · next unknown =>
    rw [contains_iff_mem, ids_push_eq_rtake (Bool.eq_false_iff.mpr unknown)] at held
    rcases List.mem_append.mp ((rtake_suffix ..).subset held) with old | new
    · exact .inl (contains_iff_mem.mpr old)
    · exact .inr (List.mem_singleton.mp new)

end Remembers

/-! ## Runs of insertions -/

/-- A window after an insertion, with the ids that were new so far, oldest first. -/
def take (s : ExecutedWindow × List ProposalId) (id : ProposalId) : ExecutedWindow × List ProposalId :=
  let (w, new) := s.1.insert id
  (w, if new then s.2 ++ [id] else s.2)

/-- A new window after some insertions, with the ids that were new. -/
def run (capacity : Nat) (asked : List ProposalId) : ExecutedWindow × List ProposalId :=
  asked.foldl take (ofCapacity capacity, [])

theorem Remembers.take {s : ExecutedWindow × List ProposalId} (h : s.1.Remembers s.2) (id : ProposalId) :
    (take s id).1.Remembers (take s id).2 := by
  cases known : s.1.contains id with
  | true => simpa [ExecutedWindow.take, insert_of_contains known] using h
  | false => simpa [ExecutedWindow.take, insert_of_new known] using h.push known

theorem remembers_run (capacity : Nat) (asked : List ProposalId) :
    (run capacity asked).1.Remembers (run capacity asked).2 ∧ (run capacity asked).1.capacity = max 1 capacity := by
  have kept (s : ExecutedWindow × List ProposalId) (h : s.1.Remembers s.2) :
      (asked.foldl take s).1.Remembers (asked.foldl take s).2 ∧ (asked.foldl take s).1.capacity = s.1.capacity := by
    induction asked generalizing s with
    | nil => exact ⟨h, rfl⟩
    | cons id rest ih =>
      obtain ⟨remembers, capacity⟩ := ih (take s id) (h.take id)
      exact ⟨remembers, capacity.trans (capacity_insert ..)⟩
  obtain ⟨remembers, same⟩ := kept (ofCapacity capacity, []) (remembers_ofCapacity capacity)
  exact ⟨remembers, same.trans (max_comm ..)⟩

/-- After any insertions the set and the queue of a window hold the same ids, each once, and no
more than its capacity: the last of those that were new when they were inserted. An id is new
just if the window does not hold it, and one that is not new leaves the window as it is. -/
theorem window_slides (capacity : Nat) (asked : List ProposalId) :
    let s := run capacity asked
    (s.1.known.Perm s.1.ids ∧ s.1.known.Nodup ∧ s.1.ids.Nodup ∧ s.1.ids.length ≤ max 1 capacity) ∧
      (∀ id, s.1.contains id = true ↔ id ∈ s.2.rtake (max 1 capacity)) ∧
      ∀ id, ((s.1.insert id).2 = true ↔ s.1.contains id = false) ∧
        ((s.1.insert id).2 = false → (s.1.insert id).1 = s.1) := by
  intro s
  obtain ⟨remembers, room⟩ := remembers_run capacity asked
  have held : s.1.ids = s.2.rtake (max 1 capacity) := room ▸ remembers.ids
  refine ⟨⟨s.1.same, s.1.same.nodup_iff.mpr s.1.nodup, s.1.nodup, ?_⟩, fun id => ?_, fun id => ?_⟩
  · rw [held, length_rtake]
    omega
  · rw [contains_iff_mem, held]
  · cases known : s.1.contains id with
    | true => simp [insert_of_contains known]
    | false => simp [insert_of_new known]

/-- An id that was refused in between is pushed out as if it had not been asked for again. -/
example : (run 2 [.ofNat 1, .ofNat 2, .ofNat 1, .ofNat 3]).1.ids = [.ofNat 2, .ofNat 3] := by decide

end ExecutedWindow

end FleetCoordination
