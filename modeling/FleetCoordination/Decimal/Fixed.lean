import FleetCoordination.Decimal
/-!
# Fixed places

A float written with a given number of decimal places. The exact binary value is
rounded to the nearest such decimal and a tie goes to the even neighbour.
-/
namespace FleetCoordination.Decimal

/-- The whole number nearest to `num / den`; a tie goes to the even one. -/
def nearest (num den : Nat) : Nat :=
  let q := num / den
  let twice := 2 * (num % den)
  if twice < den then q
  else if den < twice then q + 1
  else if q % 2 = 0 then q else q + 1

def Parts.scaled (p : Parts) (factor : Nat) : Nat :=
  match p.exponent with
  | .ofNat e => p.mantissa * Nat.pow 2 e * factor
  | .negSucc e => nearest (p.mantissa * factor) (Nat.pow 2 (e + 1))

def fixed (places : Nat) (x : Float) : String :=
  match Reading.of x with
  | .notANumber => "NaN"
  | .infinite negative => sign negative ++ "inf"
  | .finite p => sign p.negative ++ String.ofList (placed (p.scaled (Nat.pow 10 places)) places)

end FleetCoordination.Decimal
