import FleetCoordination.Json
import FleetCoordination.Record
import FleetCoordination.Word
/-!
# Records in JSON

A record is an object or an array of its fields in order.
-/
namespace FleetCoordination.Json

def isNull : Json → Bool
  | .null => true
  | _ => false

def string? : Json → Option String
  | .string s => some s
  | _ => none

def bool? : Json → Option Bool
  | .bool b => some b
  | _ => none

/-- A whole number below `2^bits`. -/
def natBelow? (bits : Nat) : Json → Option Nat
  | .int n => if 0 ≤ n ∧ n < Word.count bits then some n.toNat else none
  | _ => none

def word? : Json → Option Nat := natBelow? 64

def items? : Json → Option (List Json)
  | .array items => some items
  | _ => none

def entries? : Json → Option (List (String × Json))
  | .object fields => some fields
  | _ => none

def fields? : Json → Option (Fields Json)
  | .object fields => some (.named fields)
  | .array items => some (.listed items)
  | _ => none

/-- The name of an enumeration's value: a string, or an object with that one field and
no content. -/
def enumName? : Json → Option String
  | .string s => some s
  | .object [(name, .null)] => some name
  | _ => none

instance : Document Json where
  isNull := isNull
  text? := string?
  flag? := bool?
  natural? := natBelow?
  real? := number?
  items? := items?
  entries? := entries?
  fields? := fields?

end FleetCoordination.Json
