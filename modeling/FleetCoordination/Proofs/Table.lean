import FleetCoordination.Agent
import FleetCoordination.Table
/-!
# Tables in order

A table that is built by `insert` has increasing keys, so that each key is there once and
what is looked up is what is listed.
-/
namespace FleetCoordination.Table
variable {α : Type} {t : Table AgentId α} {k l : AgentId} {u v : α}

/-- Whether the keys of a table increase. -/
def Ordered (t : Table AgentId α) : Prop := t.keys.Pairwise (· < ·)

theorem mem_place_ne {es : List (AgentId × α)} (h : l ≠ k) : (l, u) ∈ place k v es ↔ (l, u) ∈ es := by
  induction es with
  | nil => simp [place, h]
  | cons e es ih =>
    obtain ⟨k', v'⟩ := e
    unfold place
    split
    · next same => simp [← same, h]
    · split
      · simp [h]
      · simp [ih]

theorem mem_place {es : List (AgentId × α)} (h : (l, u) ∈ place k v es) : l = k ∨ (l, u) ∈ es := by
  by_cases same : l = k
  · exact .inl same
  · exact .inr ((mem_place_ne same).mp h)

/-- Entries under other keys are left alone. -/
theorem mem_insert_ne (h : l ≠ k) : (l, u) ∈ (t.insert k v).entries ↔ (l, u) ∈ t.entries := mem_place_ne h

/-- An entry is what was put into a table last, or it was there before. -/
theorem mem_insert {e : AgentId × α} (h : e ∈ (t.insert k v).entries) : e.2 = v ∨ e ∈ t.entries := by
  obtain ⟨es⟩ := t
  simp only [insert] at h ⊢
  induction es with
  | nil => grind [place]
  | cons e' es ih => grind [place]

theorem mem_keys : k ∈ t.keys ↔ ∃ v, (k, v) ∈ t.entries := by
  simp [keys]

theorem mem_filter {p : AgentId → α → Bool} : (k, v) ∈ (t.filter p).entries ↔ (k, v) ∈ t.entries ∧ p k v = true := by
  simp [Table.filter]

theorem mem_of_lookup {es : List (AgentId × α)} (h : lookup k es = some v) : (k, v) ∈ es := by
  induction es with
  | nil => cases h
  | cons e es ih => grind [lookup]

theorem mem_of_get? (h : t.get? k = some v) : (k, v) ∈ t.entries := mem_of_lookup h

/-- The first entry under a key stays if it passes the filter. -/
theorem get?_filter_of_pass {p : AgentId → α → Bool} (h : t.get? k = some v) (pass : p k v = true) :
    (t.filter p).get? k = some v := by
  obtain ⟨es⟩ := t
  simp only [get?, Table.filter] at h ⊢
  induction es with
  | nil => cases h
  | cons e es ih => grind [lookup]

/-- A filter of keys keeps all that is under a key, or nothing. -/
theorem get?_filter_keys (t : Table AgentId α) (p : AgentId → Bool) (k : AgentId) :
    (t.filter fun k _ => p k).get? k = if p k then t.get? k else none := by
  obtain ⟨es⟩ := t
  simp only [get?, Table.filter]
  induction es with
  | nil => simp [lookup]
  | cons e es ih => grind [lookup]

namespace Ordered

theorem place {es : List (AgentId × α)} (h : (es.map (·.1)).Pairwise (· < ·)) (k : AgentId) (v : α) :
    ((Table.place k v es).map (·.1)).Pairwise (· < ·) := by
  induction es with
  | nil => simp [Table.place]
  | cons e es ih =>
    obtain ⟨k', v'⟩ := e
    obtain ⟨least, rest⟩ := List.pairwise_cons.mp h
    unfold Table.place
    split
    · next same =>
      subst same
      exact h
    next differ =>
    split
    · next first =>
      refine List.pairwise_cons.mpr ⟨fun x hx => ?_, h⟩
      rcases List.mem_cons.mp hx with rfl | hx
      · exact first
      · exact String.lt_trans first (least x hx)
    · next later =>
      refine List.pairwise_cons.mpr ⟨fun x hx => ?_, ih rest⟩
      obtain ⟨⟨l, u⟩, entry, rfl⟩ := List.mem_map.mp hx
      rcases mem_place entry with rfl | old
      · exact Decidable.not_not.mp fun not =>
          differ (String.le_antisymm (String.not_lt.mp not) (String.not_lt.mp later))
      · exact least l (List.mem_map_of_mem old)

theorem insert (h : t.Ordered) (k : AgentId) (v : α) : (t.insert k v).Ordered := place h k v

theorem filter (h : t.Ordered) (p : AgentId → α → Bool) : (t.filter p).Ordered :=
  h.sublist (List.filter_sublist.map _)

theorem nodup_keys (h : t.Ordered) : t.keys.Nodup := by
  refine h.imp ?_
  rintro a _ first rfl
  exact String.lt_irrefl a first

/-- An ordered table lists what is looked up in it. -/
theorem get?_eq_some (h : t.Ordered) : t.get? k = some v ↔ (k, v) ∈ t.entries := by
  refine ⟨mem_of_get?, fun entry => ?_⟩
  obtain ⟨es⟩ := t
  have once := h.nodup_keys
  simp only [keys, get?] at once entry ⊢
  clear h
  induction es with
  | nil => cases entry
  | cons e es ih =>
    rcases List.mem_cons.mp entry with rfl | old
    · simp [lookup]
    · obtain ⟨k', v'⟩ := e
      have other : k ≠ k' := by
        rintro rfl
        exact (List.nodup_cons.mp once).1 (List.mem_map.mpr ⟨(k, v), old, rfl⟩)
      rw [lookup, if_neg other]
      exact ih old (List.nodup_cons.mp once).2

theorem unique (h : t.Ordered) (hu : (k, u) ∈ t.entries) (hv : (k, v) ∈ t.entries) : u = v :=
  Option.some.inj ((h.get?_eq_some.mpr hu).symm.trans (h.get?_eq_some.mpr hv))

theorem countP_place {es : List (AgentId × α)} (h : (es.map (·.1)).Pairwise (· < ·)) (hu : (k, u) ∈ es)
    (p : α → Bool) :
    (Table.place k v es).countP (fun e => p e.2) + (if p u then 1 else 0) =
      es.countP (fun e => p e.2) + if p v then 1 else 0 := by
  induction es with
  | nil => cases hu
  | cons e es ih =>
    obtain ⟨k', v'⟩ := e
    obtain ⟨least, rest⟩ := List.pairwise_cons.mp h
    unfold Table.place
    rcases List.mem_cons.mp hu with same | later
    · obtain ⟨rfl, rfl⟩ := Prod.mk.inj same
      rw [if_pos rfl, List.countP_cons, List.countP_cons, Nat.add_right_comm]
    · have first : k' < k := least k (List.mem_map_of_mem later)
      have differ : k ≠ k' := by
        rintro rfl
        exact String.lt_irrefl k first
      rw [if_neg differ, if_neg (String.lt_asymm first), List.countP_cons, List.countP_cons]
      have := ih rest later
      omega

/-- A new value under a key that is there counts in the place of the old one. -/
theorem size_filter_insert (h : t.Ordered) (hu : (k, u) ∈ t.entries) (v : α) (p : α → Bool) :
    ((t.insert k v).filter fun _ x => p x).size + (if p u then 1 else 0) =
      (t.filter fun _ x => p x).size + if p v then 1 else 0 := by
  simp only [size, Table.filter, ← List.countP_eq_length_filter]
  exact countP_place h hu p

end Ordered

end FleetCoordination.Table
