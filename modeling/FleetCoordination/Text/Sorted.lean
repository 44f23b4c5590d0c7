/-!
# Sorted texts

Texts in increasing order of their code points, each once.
-/
namespace FleetCoordination.Text

def place (a : String) : List String → List String
  | [] => [a]
  | b :: rest => if a = b then b :: rest else if a < b then a :: b :: rest else b :: place a rest

def sorted (xs : List String) : List String := xs.foldr place []

@[simp] theorem mem_place {a x : String} {xs : List String} : x ∈ place a xs ↔ x = a ∨ x ∈ xs := by
  induction xs with
  | nil => simp [place]
  | cons b rest ih => grind [place]

@[simp] theorem mem_sorted {x : String} {xs : List String} : x ∈ sorted xs ↔ x ∈ xs := by
  induction xs with
  | nil => simp [sorted]
  | cons a rest ih => rw [sorted, List.foldr_cons, mem_place, ← sorted, ih, List.mem_cons]

theorem pairwise_place {a : String} {xs : List String} (h : xs.Pairwise (· < ·)) : (place a xs).Pairwise (· < ·) := by
  induction xs with
  | nil => exact List.pairwise_singleton ..
  | cons b rest ih =>
    obtain ⟨least, sorted⟩ := List.pairwise_cons.mp h
    unfold place
    split
    · exact h
    next differ =>
    split
    · next first =>
      refine List.pairwise_cons.mpr ⟨fun x hx => ?_, h⟩
      rcases List.mem_cons.mp hx with rfl | hx
      · exact first
      · exact String.lt_trans first (least x hx)
    · next later =>
      refine List.pairwise_cons.mpr ⟨fun x hx => ?_, ih sorted⟩
      rcases mem_place.mp hx with rfl | hx
      · exact Decidable.not_not.mp fun not =>
          differ (String.le_antisymm (String.not_lt.mp not) (String.not_lt.mp later))
      · exact least x hx

theorem pairwise_sorted (xs : List String) : (sorted xs).Pairwise (· < ·) := by
  induction xs with
  | nil => exact .nil
  | cons a rest ih => exact pairwise_place ih

theorem nodup_sorted (xs : List String) : (sorted xs).Nodup := by
  refine (pairwise_sorted xs).imp ?_
  rintro a _ first rfl
  exact String.lt_irrefl a first

end FleetCoordination.Text
