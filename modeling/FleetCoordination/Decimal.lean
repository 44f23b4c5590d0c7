import FleetCoordination.Word

/-!
# Binary floats as exact fractions

A finite float is `±mantissa · 2^exponent`. Decimal texts are computed from these
parts in whole-number arithmetic.
-/
namespace FleetCoordination.Decimal

structure Parts where
  negative : Bool
  mantissa : Nat
  exponent : Int
  /-- The float below is half a unit nearer than the one above. -/
  narrow : Bool

inductive Reading
  | notANumber
  | infinite (negative : Bool)
  | finite (parts : Parts)

def Reading.of (x : Float) : Reading :=
  let bits := x.toBits.toNat
  let negative := decide (Word.count 63 ≤ bits)
  let fraction : Nat := bits % Word.count 52
  let level : Nat := bits / Word.count 52 % Word.count 11
  if level = 2047 then
    if fraction = 0 then .infinite negative else .notANumber
  else if level = 0 then
    .finite ⟨negative, fraction, -1074, false⟩
  else
    .finite ⟨negative, Word.count 52 + fraction, (level : Int) - 1075, decide (fraction = 0) && decide (1 < level)⟩

def sign (negative : Bool) : String := if negative then "-" else ""

/-- Decimal digits of a whole number, most significant first. -/
def digits (n : Nat) : List Char := Nat.toDigits 10 n

def zeros (n : Nat) : List Char := List.replicate n '0'

/-- At least `width` characters, filled on the left with zeros. -/
def zeroFilled (width n : Nat) : String :=
  let ds := digits n
  String.ofList (zeros (width - ds.length) ++ ds)

/-- The digits of `n / 10^places` with the point set. -/
def placed (n places : Nat) : List Char :=
  let ds := digits n
  let ds := zeros (places + 1 - ds.length) ++ ds
  if places = 0 then ds
  else ds.take (ds.length - places) ++ '.' :: ds.drop (ds.length - places)

end FleetCoordination.Decimal
