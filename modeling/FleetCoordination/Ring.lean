/-!
# Rings

A fixed number of slots that are written in turn. Once all are in use, what is written
takes the place of the oldest item.
-/
namespace FleetCoordination

structure Ring (α : Type) (capacity : Nat) where
  slots : Vector α capacity
  /-- The slot that is written next. -/
  head : Fin capacity
  /-- How many slots are in use. -/
  used : Nat
  used_le : used ≤ capacity

namespace Ring
variable {α : Type} {capacity : Nat}

/-- No slot is in use; `blank` stands in all of them. -/
def empty (blank : α) (room : 0 < capacity) : Ring α capacity :=
  { slots := .replicate capacity blank, head := ⟨0, room⟩, used := 0, used_le := Nat.zero_le capacity }

/-- The slot that a count comes to as it goes round. -/
def slot (r : Ring α capacity) (n : Nat) : Fin capacity := ⟨n % capacity, Nat.mod_lt n r.head.pos⟩

def push (r : Ring α capacity) (a : α) : Ring α capacity :=
  { slots := r.slots.set r.head a
    head := r.slot (r.head + 1)
    used := min (r.used + 1) capacity
    used_le := Nat.min_le_right .. }

def last? (r : Ring α capacity) : Option α :=
  if r.used = 0 then none else some (r.slots.get (r.slot (r.head + capacity - 1)))

/-- The slot of the oldest item. -/
def start (r : Ring α capacity) : Fin capacity := r.slot (r.head + capacity - r.used)

/-- The item in a place behind the oldest. -/
def item (r : Ring α capacity) (i : Nat) : α := r.slots.get (r.slot (r.start + i))

/-- The items, oldest first. -/
def toList (r : Ring α capacity) : List α := (List.range r.used).map r.item

end Ring

end FleetCoordination
