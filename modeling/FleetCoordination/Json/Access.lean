import FleetCoordination.Json.Record
import FleetCoordination.Scalar
/-!
# Fields of loose objects

Reads single fields of an object that need not be there, each with a value to take
instead. Floats that JSON has no number for are spelled as texts.
-/
namespace FleetCoordination.Json

/-- The value of a field, null if there is none. -/
def get (j : Json) (name : String) : Json := (j.field? name).getD .null

def text? (j : Json) (name : String) : Option String := (j.get name).string?
def text (j : Json) (name : String) (fallback : String := "") : String := (j.text? name).getD fallback
def flag (j : Json) (name : String) (fallback : Bool := false) : Bool := ((j.get name).bool?).getD fallback

/-- A whole number; a float loses its fraction. -/
def whole (j : Json) (name : String) (fallback : Int := 0) : Int :=
  match j.get name with
  | .int n => n
  | .float x => if x < 0.0 then -(Int.ofNat (Scalar.floatWhole (-x))) else Scalar.floatWhole x
  | _ => fallback

def nat (j : Json) (name : String) (fallback : Nat := 0) : Nat := (j.whole name fallback).toNat

def list (j : Json) (name : String) : List Json := ((j.get name).items?).getD []
def texts (j : Json) (name : String) : List String := (j.list name).filterMap string?

/-! ## Spelled floats -/

/-- A number, or the text of a float that has none. -/
def spelledNumber? : Json → Option Float
  | .string "NaN" => some (0.0 / 0.0)
  | .string "inf" => some (1.0 / 0.0)
  | .string "-inf" => some (-1.0 / 0.0)
  | j => j.number?

def float? (j : Json) (name : String) : Option Float := (j.get name).spelledNumber?
def real (j : Json) (name : String) (fallback : Float := 0.0) : Float := (j.float? name).getD fallback

/-- An object with its spelled floats put in as floats. -/
def unspelled : Json → Json
  | .object fields => .object (fields.map fun e => match e.2 with
      | .string s => (e.1, (((Json.string s).spelledNumber?).map .float).getD e.2)
      | v => (e.1, v))
  | j => j

def spell (x : Float) : Json :=
  if x.isNaN then .string "NaN"
  else if x.isInf then .string (if 0.0 < x then "inf" else "-inf")
  else .float x

mutual

/-- A value with every float spelled that JSON has no number for. -/
def spelled : Json → Json
  | .float x => spell x
  | .array items => .array (spelledItems items)
  | .object fields => .object (spelledFields fields)
  | j => j

def spelledItems : List Json → List Json
  | [] => []
  | j :: rest => spelled j :: spelledItems rest

def spelledFields : List (String × Json) → List (String × Json)
  | [] => []
  | (n, j) :: rest => (n, spelled j) :: spelledFields rest

end

end FleetCoordination.Json
