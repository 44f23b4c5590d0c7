/-!
# Sorted tables

A finite map whose entries are kept by increasing key. Looking up after `insert` and
`erase` is settled key by key, whatever the order on keys is.
-/
namespace FleetCoordination

structure Table (κ α : Type) where
  entries : List (κ × α) := []

namespace Table
variable {κ α β : Type} [DecidableEq κ] [LT κ] [DecidableLT κ]

def empty : Table κ α := {}

def lookup (k : κ) : List (κ × α) → Option α
  | [] => none
  | (k', v) :: rest => if k = k' then some v else lookup k rest

def place (k : κ) (v : α) : List (κ × α) → List (κ × α)
  | [] => [(k, v)]
  | (k', v') :: rest =>
    if k = k' then (k, v) :: rest
    else if k < k' then (k, v) :: (k', v') :: rest
    else (k', v') :: place k v rest

def get? (t : Table κ α) (k : κ) : Option α := lookup k t.entries
def contains (t : Table κ α) (k : κ) : Bool := (t.get? k).isSome
def insert (t : Table κ α) (k : κ) (v : α) : Table κ α := ⟨place k v t.entries⟩
def erase (t : Table κ α) (k : κ) : Table κ α := ⟨t.entries.filter (decide <| ·.1 ≠ k)⟩
def keys (t : Table κ α) : List κ := t.entries.map (·.1)
def size (t : Table κ α) : Nat := t.entries.length
def filter (p : κ → α → Bool) (t : Table κ α) : Table κ α := ⟨t.entries.filter fun e => p e.1 e.2⟩
def ofList (es : List (κ × α)) : Table κ α := es.foldl (fun t e => t.insert e.1 e.2) {}
def modify (t : Table κ α) (k : κ) (f : α → α) : Table κ α :=
  match t.get? k with
  | some v => t.insert k (f v)
  | none => t

theorem lookup_place_self (k : κ) (v : α) (es : List (κ × α)) : lookup k (place k v es) = some v := by
  induction es with
  | nil => simp [place, lookup]
  | cons e es ih => grind [place, lookup]

theorem lookup_place_ne {k l : κ} (h : l ≠ k) (v : α) (es : List (κ × α)) :
    lookup l (place k v es) = lookup l es := by
  induction es with
  | nil => simp [place, lookup, h]
  | cons e es ih => grind [place, lookup]

omit [LT κ] [DecidableLT κ] in
@[simp] theorem get?_empty (k : κ) : (empty : Table κ α).get? k = none := rfl

@[simp] theorem get?_insert_self (t : Table κ α) (k : κ) (v : α) : (t.insert k v).get? k = some v :=
  lookup_place_self k v t.entries

theorem get?_insert_ne (t : Table κ α) {k l : κ} (h : l ≠ k) (v : α) :
    (t.insert k v).get? l = t.get? l := lookup_place_ne h v t.entries

theorem get?_insert (t : Table κ α) (k l : κ) (v : α) :
    (t.insert k v).get? l = if l = k then some v else t.get? l := by
  split
  · next h => rw [h, get?_insert_self]
  · next h => exact get?_insert_ne t h v

end Table

end FleetCoordination
