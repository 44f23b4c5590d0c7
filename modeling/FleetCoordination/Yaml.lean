import FleetCoordination.Json.Reader
import FleetCoordination.Record
import FleetCoordination.Word
/-!
# YAML documents

A document is a tree of scalars, sequences and mappings. What a plain scalar stands for
depends on the kind of value that is asked for; a quoted one is always a text.
-/
namespace FleetCoordination

inductive Yaml where
  | scalar (plain : Bool) (text : String)
  | sequence (items : List Yaml)
  | mapping (entries : List (Yaml × Yaml))
  deriving Inhabited

namespace Yaml

def empty : Yaml := scalar true ""

/-! ## Plain scalars -/

def nullTexts : List String := ["", "~", "null", "Null", "NULL"]
def trueTexts : List String := ["true", "True", "TRUE"]
def falseTexts : List String := ["false", "False", "FALSE"]

/-- Digits with leading zeros are no whole number. -/
def isZeroFilled (cs : List Char) : Bool := 1 < cs.length && cs.head? = some '0' && cs.all Char.isDigit

/-- The whole number that digits of a base denote. -/
def digits? (base : Nat) (cs : List Char) : Option Nat := do
  if cs.isEmpty then none
  else
    let ds ← cs.mapM Json.hexValue?
    if ds.all (· < base) then some (ds.foldl (fun n d => base * n + d) 0) else none

def unsigned : List Char → List Char
  | '+' :: rest => rest
  | cs => cs

/-- A whole number in decimal, hexadecimal, octal or binary digits. -/
def naturalText? (text : String) : Option Nat :=
  match unsigned text.toList with
  | '0' :: 'x' :: rest => digits? 16 rest
  | '0' :: 'o' :: rest => digits? 8 rest
  | '0' :: 'b' :: rest => digits? 2 rest
  | cs => if isZeroFilled cs then none else digits? 10 cs

/-- A decimal number with an optional point and exponent. -/
def decimalText? (cs : List Char) : Option Float := do
  let (negative, cs) := match cs with
    | '-' :: rest => (true, rest)
    | cs => (false, cs)
  let whole := cs.takeWhile Char.isDigit
  let cs := cs.drop whole.length
  let (fraction, cs) := match cs with
    | '.' :: rest => (rest.takeWhile Char.isDigit, rest.dropWhile Char.isDigit)
    | cs => ([], cs)
  let (power, cs) ← match cs with
    | 'e' :: rest => Json.exponent? rest
    | 'E' :: rest => Json.exponent? rest
    | cs => some (0, cs)
  if (whole ++ fraction).isEmpty || !cs.isEmpty then none
  else some (Json.decimalFloat negative (Json.decimalValue (whole ++ fraction)) (power - fraction.length))

/-- A float; digits alone must denote a finite one. -/
def realText? (text : String) : Option Float :=
  let positive := String.ofList (unsigned text.toList)
  if positive ∈ [".inf", ".Inf", ".INF"] then some (1.0 / 0.0)
  else if text ∈ ["-.inf", "-.Inf", "-.INF"] then some (-1.0 / 0.0)
  else if text ∈ [".nan", ".NaN", ".NAN"] then some (0.0 / 0.0)
  else if text.startsWith "+-" then none
  else (decimalText? positive.toList).filter Float.isFinite

/-! ## Reading values -/

def isNull : Yaml → Bool
  | scalar true text => decide (text ∈ nullTexts)
  | _ => false

/-- The text of any scalar. -/
def text? : Yaml → Option String
  | scalar _ text => some text
  | _ => none

def plain? : Yaml → Option String
  | scalar true text => some text
  | _ => none

def flag? (y : Yaml) : Option Bool := do
  let text ← y.plain?
  if text ∈ trueTexts then some true else if text ∈ falseTexts then some false else none

def natural? (bits : Nat) (y : Yaml) : Option Nat := (y.plain?.bind naturalText?).filter fun n => n < Word.count bits

def real? (y : Yaml) : Option Float := y.plain?.bind realText?

/-- The items of a sequence. Nothing at all is an empty one. -/
def items? : Yaml → Option (List Yaml)
  | sequence items => some items
  | scalar true "" => some []
  | _ => none

/-- The entries of a mapping whose keys are scalars. Nothing at all is an empty one. -/
def entries? : Yaml → Option (List (String × Yaml))
  | mapping entries => entries.mapM fun e => e.1.text?.map (·, e.2)
  | scalar true "" => some []
  | _ => none

instance : Document Yaml where
  isNull := isNull
  text? := text?
  flag? := flag?
  natural? := natural?
  real? := real?
  items? := items?
  entries? := entries?
  fields? y := y.entries?.map .named

end Yaml

end FleetCoordination
