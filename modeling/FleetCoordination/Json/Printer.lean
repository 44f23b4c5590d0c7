import FleetCoordination.Json
import FleetCoordination.Decimal.Shortest
/-!
# JSON texts: printing

One line without blanks. A float always shows a point or an exponent; a float that is
not finite is written as `null`.
-/
namespace FleetCoordination.Json

def hexDigit (n : Nat) : Char := Nat.digitChar (n % 16)

def escaped (c : Char) : String :=
  match c with
  | '"' => "\\\""
  | '\\' => "\\\\"
  | '\n' => "\\n"
  | '\r' => "\\r"
  | '\t' => "\\t"
  | c =>
    if c = Char.ofNat 8 then "\\b"
    else if c = Char.ofNat 12 then "\\f"
    else if c.toNat < 32 then String.ofList ['\\', 'u', '0', '0', hexDigit (c.toNat / 16), hexDigit c.toNat]
    else c.toString

def quoted (s : String) : String := s.foldl (fun acc c => acc ++ escaped c) "\"" ++ "\""

def floatText (x : Float) : String :=
  match Decimal.Reading.of x with
  | .finite p => Decimal.number p
  | _ => "null"

mutual
def print : Json → String
  | .null => "null"
  | .bool b => if b then "true" else "false"
  | .int n => toString n
  | .float x => floatText x
  | .string s => quoted s
  | .array items => "[" ++ printItems items ++ "]"
  | .object fields => "\x7b" ++ printFields fields ++ "\x7d"

def printItems : List Json → String
  | [] => ""
  | [j] => print j
  | j :: k :: rest => print j ++ "," ++ printItems (k :: rest)

def printFields : List (String × Json) → String
  | [] => ""
  | [(n, v)] => quoted n ++ ":" ++ print v
  | (n, v) :: f :: rest => quoted n ++ ":" ++ print v ++ "," ++ printFields (f :: rest)
end

end FleetCoordination.Json
