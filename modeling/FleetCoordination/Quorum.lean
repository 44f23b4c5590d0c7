import FleetCoordination.Scalar
/-!
# Quorums

How many of the alive agents must agree, and how many may be faulty.
-/
namespace FleetCoordination.Quorum
variable {α : Type} [Scalar α]

/-- Slack taken off before rounding up, so that a product that should be whole is not
rounded past it. -/
def slack : α := 1e-9

/-- The fraction of `alive` rounded up; nothing when the product is not finite. -/
def share (fraction : α) (alive : Nat) : Nat :=
  let product := fraction * Scalar.ofNat alive - slack
  if Scalar.isFinite product then Scalar.ceiling product else 0

/-- The least number of agents that makes up `fraction` of `alive`, at least one and at
most all of them. -/
def size (fraction : α) (alive : Nat) : Nat :=
  min (max (share fraction alive) 1) (max alive 1)

def majority (alive : Nat) : Nat := alive / 2 + 1

def maxFaulty (alive : Nat) : Nat := (alive - 1) / 3

theorem one_le_size (fraction : α) (alive : Nat) : 1 ≤ size fraction alive := by
  unfold size; omega

theorem size_le (fraction : α) {alive : Nat} (h : 1 ≤ alive) : size fraction alive ≤ alive := by
  unfold size; omega

end FleetCoordination.Quorum
