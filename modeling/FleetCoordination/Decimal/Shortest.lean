import FleetCoordination.Decimal
/-!
# Shortest decimals

The fewest decimal digits that read back to the same float and, among those, the
nearest to it. Plain texts never use an exponent.
-/
namespace FleetCoordination.Decimal

/-- A decimal `digits · 10^power`. -/
structure Short where
  significand : Nat
  power : Int

namespace Parts

/-- Four times the value over a power of two, with the ends of the interval that rounds
to it. -/
structure Interval where
  low : Nat
  value : Nat
  high : Nat
  den : Nat
  closed : Bool

def interval (p : Parts) : Interval :=
  let low := 4 * p.mantissa - (if p.narrow then 1 else 2)
  let value := 4 * p.mantissa
  let high := 4 * p.mantissa + 2
  let even := p.mantissa % 2 = 0
  match p.exponent - 2 with
  | .ofNat e => ⟨low * Nat.pow 2 e, value * Nat.pow 2 e, high * Nat.pow 2 e, 1, even⟩
  | .negSucc e => ⟨low, value, high, Nat.pow 2 (e + 1), even⟩

namespace Interval

/-- Compares `n · 10^power` with `numerator / den`. -/
def compareTo (i : Interval) (n : Nat) (power : Int) (numerator : Nat) : Ordering :=
  match power with
  | .ofNat k => compare (n * Nat.pow 10 k * i.den) numerator
  | .negSucc k => compare (n * i.den) (numerator * Nat.pow 10 (k + 1))

def holds (i : Interval) (n : Nat) (power : Int) : Bool :=
  match i.compareTo n power i.low, i.compareTo n power i.high with
  | .gt, .lt => true
  | .eq, _ => i.closed
  | _, .eq => i.closed
  | _, _ => false

def below (i : Interval) (power : Int) : Nat :=
  match power with
  | .ofNat k => i.value / (Nat.pow 10 k * i.den)
  | .negSucc k => i.value * Nat.pow 10 (k + 1) / i.den

/-- Whether the value is nearer to `n` than to `n + 1` on the grid of `10^power`; at an
exact tie the even one counts as nearer. -/
def nearerBelow (i : Interval) (n : Nat) (power : Int) : Bool :=
  let twice := match power with
    | .ofNat k => compare ((2 * n + 1) * Nat.pow 10 k * i.den) (2 * i.value)
    | .negSucc k => compare ((2 * n + 1) * i.den) (2 * i.value * Nat.pow 10 (k + 1))
  match twice with
  | .gt => true
  | .lt => false
  | .eq => n % 2 = 0

/-- The point of the grid of `10^power` inside the interval that is nearest to the value. -/
def hit (i : Interval) (power : Int) : Option Nat :=
  let n := i.below power
  match 0 < n && i.holds n power, i.holds (n + 1) power with
  | true, true => some (if i.nearerBelow n power then n else n + 1)
  | true, false => some n
  | false, true => some (n + 1)
  | false, false => none

/-- The power of ten of the leading digit, starting from an estimate that is off by at
most one. -/
def leading (i : Interval) (estimate : Int) : Int :=
  if i.compareTo 1 estimate i.value == .gt then estimate - 1
  else if i.compareTo 1 (estimate + 1) i.value == .gt then estimate
  else estimate + 1

def search (i : Interval) (lead : Int) : Nat → Short
  | 0 => ⟨i.below (lead - 16), lead - 16⟩
  | more + 1 =>
    let power := lead - (16 - (more : Int))
    match i.hit power with
    | some n => ⟨n, power⟩
    | none => search i lead more

end Interval

def shortest (p : Parts) : Short :=
  if p.mantissa = 0 then ⟨0, 0⟩
  else
    let i := p.interval
    let bits : Int := (p.mantissa.log2 : Int) + p.exponent
    i.search (i.leading (Int.fdiv (bits * 1233) 4096)) 17

end Parts

namespace Short

/-- The same decimal with no trailing zeros in its significand. -/
def trimmed (s : Short) : Short :=
  let rec drop : Nat → Nat → Int → Short
    | 0, n, power => ⟨n, power⟩
    | fuel + 1, n, power => if n ≠ 0 ∧ n % 10 = 0 then drop fuel (n / 10) (power + 1) else ⟨n, power⟩
  drop 20 s.significand s.power

def plain (s : Short) : List Char :=
  match s.power with
  | .ofNat k => if s.significand = 0 then ['0'] else digits s.significand ++ zeros k
  | .negSucc k => placed s.significand (k + 1)

end Short

/-- Positional text: no exponent, and no point for a whole value. -/
def plain (x : Float) : String :=
  match Reading.of x with
  | .notANumber => "NaN"
  | .infinite negative => sign negative ++ "inf"
  | .finite p => sign p.negative ++ String.ofList p.shortest.trimmed.plain

/-- One digit before the point, if there are others. -/
def Short.scientific (s : Short) (point : Int) : List Char :=
  match digits s.significand with
  | d :: e :: rest => d :: '.' :: e :: rest ++ 'e' :: (toString (point - 1)).toList
  | ds => ds ++ 'e' :: (toString (point - 1)).toList

/-- Text of a finite float as a number with a point or an exponent, so that it reads
back as a float and not as a whole number. The exponent is for values below a hundred
thousandth and above sixteen digits. -/
def number (p : Parts) : String :=
  let s := p.shortest.trimmed
  let point : Int := (digits s.significand).length + s.power
  let body :=
    if s.significand = 0 ∨ -5 < point ∧ point ≤ 16 then s.plain ++ (if 0 ≤ s.power then ['.', '0'] else [])
    else s.scientific point
  sign p.negative ++ String.ofList body

end FleetCoordination.Decimal
