import FleetCoordination.Decimal
import FleetCoordination.Json.Record
import FleetCoordination.Json.Reader
import FleetCoordination.Text.Blank
/-!
# Timestamps

Instants of UTC to the nanosecond, with their RFC 3339 texts. A second of a minute may
carry more than 10^9 nanoseconds: that is a leap second, written `:60`.
-/
namespace FleetCoordination

structure Timestamp where
  /-- Whole seconds since the start of 1970. -/
  seconds : Int
  nanos : Nat
  deriving DecidableEq, Inhabited

namespace Timestamp

def epoch : Timestamp := ⟨0, 0⟩

def ofMillis (ms : Int) : Timestamp := ⟨ms.fdiv 1000, (ms.fmod 1000).toNat * 1000000⟩
def ofSeconds (s : Int) : Timestamp := ⟨s, 0⟩

/-- Nanoseconds since the start of 1970. -/
def total (t : Timestamp) : Int := t.seconds * 1000000000 + t.nanos

/-- Nanoseconds from `earlier` to `later`. -/
def since (later earlier : Timestamp) : Int := later.total - earlier.total

def before (a b : Timestamp) : Bool :=
  decide (a.seconds < b.seconds) || (decide (a.seconds = b.seconds) && decide (a.nanos < b.nanos))

def millis (t : Timestamp) : Int := t.total.fdiv 1000000

/-! ## The calendar -/

/-- Days from the start of 1970 to a date of the proleptic Gregorian calendar. -/
def dayNumber (year : Int) (month day : Nat) : Int :=
  let y := if month ≤ 2 then year - 1 else year
  let era := y.fdiv 400
  let yearOfEra := y - era * 400
  let shifted : Int := ((month + 9) % 12 : Nat)
  let dayOfYear := (153 * shifted + 2) / 5 + day - 1
  let dayOfEra := yearOfEra * 365 + yearOfEra / 4 - yearOfEra / 100 + dayOfYear
  era * 146097 + dayOfEra - 719468

/-- Year, month and day of a day number. -/
def date (days : Int) : Int × Nat × Nat :=
  let z := days + 719468
  let era := z.fdiv 146097
  let dayOfEra := z - era * 146097
  let yearOfEra := (dayOfEra - dayOfEra / 1460 + dayOfEra / 36524 - dayOfEra / 146096) / 365
  let dayOfYear := dayOfEra - (365 * yearOfEra + yearOfEra / 4 - yearOfEra / 100)
  let shifted := (5 * dayOfYear + 2) / 153
  let day := dayOfYear - (153 * shifted + 2) / 5 + 1
  let month := if shifted < 10 then shifted + 3 else shifted - 9
  let year := yearOfEra + era * 400
  (if month ≤ 2 then year + 1 else year, month.toNat, day.toNat)

def isLeap (year : Int) : Bool :=
  year.fmod 4 = 0 && (year.fmod 100 ≠ 0 || year.fmod 400 = 0)

def daysInMonth (year : Int) (month : Nat) : Nat :=
  match month with
  | 2 => if isLeap year then 29 else 28
  | 4 | 6 | 9 | 11 => 30
  | _ => 31

/-- The years a timestamp may lie in. -/
def yearInRange (year : Int) : Bool := decide (-262143 ≤ year) && decide (year ≤ 262142)

/-! ## Writing -/

def yearText (year : Int) : String :=
  if 0 ≤ year ∧ year ≤ 9999 then Decimal.zeroFilled 4 year.toNat
  else if 0 ≤ year then "+" ++ Decimal.zeroFilled 4 year.toNat
  else "-" ++ Decimal.zeroFilled 4 year.natAbs

/-- The fraction with 3, 6 or 9 digits, the fewest that are exact; nothing when it is
zero. -/
def fractionText (nanos : Nat) : String :=
  if nanos = 0 then ""
  else if nanos % 1000000 = 0 then "." ++ Decimal.zeroFilled 3 (nanos / 1000000)
  else if nanos % 1000 = 0 then "." ++ Decimal.zeroFilled 6 (nanos / 1000)
  else "." ++ Decimal.zeroFilled 9 nanos

def text (t : Timestamp) : String :=
  let days := t.seconds.fdiv 86400
  let rest := (t.seconds.fmod 86400).toNat
  let (year, month, day) := date days
  let second := rest % 60 + t.nanos / 1000000000
  yearText year ++ "-" ++ Decimal.zeroFilled 2 month ++ "-" ++ Decimal.zeroFilled 2 day ++ "T" ++
    Decimal.zeroFilled 2 (rest / 3600) ++ ":" ++ Decimal.zeroFilled 2 (rest / 60 % 60) ++ ":" ++
    Decimal.zeroFilled 2 second ++ fractionText (t.nanos % 1000000000) ++ "Z"

/-! ## Reading -/

/-- At most `width` digits, at least one, after any blanks. -/
def number? (width : Nat) (cs : List Char) : Option (Nat × List Char) :=
  let cs := Text.trimLeft cs
  let ds := (cs.take width).takeWhile Char.isDigit
  if ds.isEmpty then none else some (Json.decimalValue ds, cs.drop ds.length)

/-- Four digits at most, or any number of them after a sign. -/
def year? (cs : List Char) : Option (Int × List Char) :=
  match Text.trimLeft cs with
  | '-' :: rest => (signed rest).map fun r => (-(r.1 : Int), r.2)
  | '+' :: rest => (signed rest).map fun r => ((r.1 : Int), r.2)
  | cs => (number? 4 cs).map fun r => ((r.1 : Int), r.2)
where
  signed (cs : List Char) : Option (Nat × List Char) :=
    let ds := cs.takeWhile Char.isDigit
    if ds.isEmpty then none else some (Json.decimalValue ds, cs.drop ds.length)

def literal? (c : Char) (cs : List Char) : Option (List Char) :=
  match Text.trimLeft cs with
  | d :: rest => if c = d then some rest else none
  | [] => none

/-- Nine digits count; more are skipped. -/
def fraction? (cs : List Char) : Option (Nat × List Char) :=
  match cs with
  | '.' :: rest =>
    let ds := rest.takeWhile Char.isDigit
    if ds.isEmpty then none
    else
      let kept := ds.take 9
      some (Json.decimalValue kept * Nat.pow 10 (9 - kept.length), rest.drop ds.length)
  | cs => some (0, cs)

def twoDigits? : List Char → Option (Nat × List Char)
  | a :: b :: rest =>
    if a.isDigit && b.isDigit then some (10 * Json.digitValue a + Json.digitValue b, rest) else none
  | _ => none

/-- Seconds east of UTC. -/
def offset? (cs : List Char) : Option (Int × List Char) :=
  match Text.trimLeft cs with
  | 'Z' :: rest => some (0, rest)
  | 'z' :: rest => some (0, rest)
  | a :: b :: c :: rest =>
    if a.toUpper = 'U' ∧ b.toUpper = 'T' ∧ c.toUpper = 'C' then some (0, rest) else signed (a :: b :: c :: rest)
  | _ => none
where
  signed : List Char → Option (Int × List Char)
    | '+' :: rest => (minutes rest).map fun r => ((r.1 : Int), r.2)
    | '-' :: rest => (minutes rest).map fun r => (-(r.1 : Int), r.2)
    | '\u2212' :: rest => (minutes rest).map fun r => (-(r.1 : Int), r.2)
    | _ => none
  minutes (cs : List Char) : Option (Nat × List Char) := do
    let (hours, rest) ← twoDigits? cs
    let rest := rest.dropWhile fun c => c = ':' || Text.isBlank c
    let (mins, rest) ← twoDigits? rest
    if mins < 60 ∧ hours < 24 then some (hours * 3600 + mins * 60, rest) else none

def timeSeparator? : List Char → Option (List Char)
  | 'T' :: rest => some rest
  | 't' :: rest => some rest
  | ' ' :: rest => some rest
  | _ => none

def parse? (s : String) : Option Timestamp := do
  let (year, cs) ← year? s.toList
  let (month, cs) ← number? 2 (← literal? '-' cs)
  let (day, cs) ← number? 2 (← literal? '-' cs)
  let (hour, cs) ← number? 2 (← timeSeparator? cs)
  let (minute, cs) ← number? 2 (← literal? ':' cs)
  let (second, cs) ← number? 2 (← literal? ':' cs)
  let (nanos, cs) ← fraction? cs
  let (east, cs) ← offset? cs
  if (Text.trimLeft cs).isEmpty && yearInRange year && 1 ≤ month && month ≤ 12 && 1 ≤ day &&
      day ≤ daysInMonth year month && hour < 24 && minute < 60 && second ≤ 60 then
    let leap := second = 60
    let local_ : Int := dayNumber year month day * 86400 + hour * 3600 + minute * 60 +
      (if leap then 59 else second : Nat)
    let t : Timestamp := ⟨local_ - east, if leap then 1000000000 + nanos else nanos⟩
    if yearInRange (date (t.seconds.fdiv 86400)).1 then some t else none
  else none

def toJson (t : Timestamp) : Json := .string t.text
def ofJson? (j : Json) : Option Timestamp := j.string?.bind parse?

end Timestamp

end FleetCoordination
