/-!
# JSON values

Whole numbers and floats are kept apart. Objects list their fields in the order they
were given; a reader keeps one value per name.
-/
namespace FleetCoordination

inductive Json where
  | null
  | bool (value : Bool)
  | int (value : Int)
  | float (value : Float)
  | string (value : String)
  | array (items : List Json)
  | object (fields : List (String × Json))
  deriving Inhabited

namespace Json

def ofNat (n : Nat) : Json := .int n
def strings (xs : List String) : Json := .array (xs.map .string)
def ofOption {α : Type} (f : α → Json) : Option α → Json
  | some x => f x
  | none => .null

def lookup (name : String) : List (String × Json) → Option Json
  | [] => none
  | (n, v) :: rest => if n = name then some v else lookup name rest

def field? (j : Json) (name : String) : Option Json :=
  match j with
  | .object fields => lookup name fields
  | _ => none

/-- Fields with the later of two equal names kept. -/
def withField (name : String) (value : Json) : List (String × Json) → List (String × Json)
  | [] => [(name, value)]
  | (n, v) :: rest => if n = name then (n, value) :: rest else (n, v) :: withField name value rest

/-- The value of a number as a float. -/
def number? : Json → Option Float
  | .int n => some (Float.ofInt n)
  | .float x => some x
  | _ => none

end Json

end FleetCoordination
