import FleetCoordination.Word

/-!
# Scalars

Scores, risks and fractions are computed over a `Scalar`. The running program
takes binary floats; exact rationals give the same formulas without rounding.
-/
namespace FleetCoordination

class Scalar (α : Type) extends Add α, Sub α, Mul α, Div α, Neg α, LT α, LE α, OfScientific α where
  decLt : DecidableLT α
  decLe : DecidableLE α
  ofNat : Nat → α
  isFinite : α → Bool
  /-- The least whole number not below the value, held inside the range of 64-bit words. -/
  ceiling : α → Nat
  magnitude : α → α
  /-- A total order that refines `<`. -/
  order : α → α → Ordering

attribute [reducible, instance] Scalar.decLt Scalar.decLe

namespace Scalar

/-- Position of a float in the total order of its bit patterns: negative patterns are
mirrored below the positive ones. -/
def floatRank (x : Float) : Int :=
  let bits := x.toBits.toNat
  if bits < Word.count 63 then bits else (Word.last 63 : Int) - bits

/-- The least whole number not below a float, held inside the range of 64-bit words; zero for a NaN. -/
def floatCeiling (x : Float) : Nat :=
  match x.toModel.unpack with
  | .finite .positive m e _ =>
    let parts := Word.count (-e).toNat
    min ((m * Word.count e.toNat + (parts - 1)) / parts) (Word.last 64)
  | .infinity .positive => Word.last 64
  | .finite .negative .. | .infinity .negative | .zero _ | .notANumber => 0

/-- Whole part of a float, held inside the range of 64-bit words; zero for a NaN. -/
def floatWhole (x : Float) : Nat := x.toUInt64.toNat

instance : Scalar Float where
  decLt := inferInstance
  decLe := inferInstance
  ofNat := Float.ofNat
  isFinite := Float.isFinite
  ceiling := floatCeiling
  magnitude := Float.abs
  order a b := compare (floatRank a) (floatRank b)

instance : Scalar Rat where
  decLt := inferInstance
  decLe := inferInstance
  ofNat n := n
  isFinite _ := true
  ceiling x := min x.ceil.toNat (Word.last 64)
  magnitude x := if x < 0 then -x else x
  order a b := if a < b then .lt else if a = b then .eq else .gt

variable {α : Type} [Scalar α]

/-- The value moved to the nearest end of `[low, high]` when it lies outside. -/
def clamp (low high x : α) : α :=
  if x < low then low else if high < x then high else x

/-- Membership in the closed unit interval; a NaN is outside. -/
def inUnit (x : α) : Bool := decide (0.0 ≤ x) && decide (x ≤ 1.0)

def sum (xs : List α) : α := xs.foldl (· + ·) 0.0

end Scalar

end FleetCoordination
