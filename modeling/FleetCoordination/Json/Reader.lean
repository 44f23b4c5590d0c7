import FleetCoordination.Json
import FleetCoordination.Word
/-!
# JSON texts: reading

A whole number outside the 64-bit ranges is read as a float. Of two fields with one
name the later value counts.
-/
namespace FleetCoordination.Json

def isBlank (c : Char) : Bool := c = ' ' || c = '\n' || c = '\t' || c = '\r'

def skipBlank (cs : List Char) : List Char := cs.dropWhile isBlank

def digitValue (c : Char) : Nat := c.toNat - '0'.toNat

def decimalValue (cs : List Char) : Nat := cs.foldl (fun n c => 10 * n + digitValue c) 0

def hexValue? (c : Char) : Option Nat :=
  if c.isDigit then some (digitValue c)
  else if 'a' ≤ c ∧ c ≤ 'f' then some (c.toNat - 'a'.toNat + 10)
  else if 'A' ≤ c ∧ c ≤ 'F' then some (c.toNat - 'A'.toNat + 10)
  else none

def fourHex? : List Char → Option (Nat × List Char)
  | a :: b :: c :: d :: rest => do
    let value := (((← hexValue? a) * 16 + (← hexValue? b)) * 16 + (← hexValue? c)) * 16 + (← hexValue? d)
    some (value, rest)
  | _ => none

/-- The float nearest to `±significand · 10^power`. Beyond four hundred places either way
it is infinite or nought. -/
def decimalFloat (negative : Bool) (significand : Nat) (power : Int) : Float :=
  let x :=
    if significand = 0 then 0.0
    else if 400 < power then 1.0 / 0.0
    else if power + (toString significand).length < -400 then 0.0
    else match power with
      | .ofNat k => Float.ofScientific significand false k
      | .negSucc k => Float.ofScientific significand true (k + 1)
  if negative then -x else x

def wholeNumber (negative : Bool) (n : Nat) : Json :=
  if negative then
    if n = 0 then .float (-0.0) else if n ≤ Word.count 63 then .int (-n) else .float (decimalFloat true n 0)
  else if n < Word.count 64 then .int n else .float (decimalFloat false n 0)

def exponent? (cs : List Char) : Option (Int × List Char) :=
  let (negative, cs) := match cs with
    | '-' :: rest => (true, rest)
    | '+' :: rest => (false, rest)
    | cs => (false, cs)
  let ds := cs.takeWhile Char.isDigit
  if ds.isEmpty then none
  else
    let n : Int := decimalValue ds
    some (if negative then -n else n, cs.dropWhile Char.isDigit)

def number (cs : List Char) : Option (Json × List Char) := do
  let (negative, cs) := match cs with
    | '-' :: rest => (true, rest)
    | cs => (false, cs)
  let whole := cs.takeWhile Char.isDigit
  let cs := cs.dropWhile Char.isDigit
  if whole.isEmpty || (whole.length > 1 && whole.head? == some '0') then none
  else
    let (fraction, cs, pointed) ← match cs with
      | '.' :: rest =>
        let ds := rest.takeWhile Char.isDigit
        if ds.isEmpty then none else some (ds, rest.dropWhile Char.isDigit, true)
      | cs => some ([], cs, false)
    let (power, cs, scaled) ← match cs with
      | 'e' :: rest => (exponent? rest).map fun r => (r.1, r.2, true)
      | 'E' :: rest => (exponent? rest).map fun r => (r.1, r.2, true)
      | cs => some ((0 : Int), cs, false)
    if pointed || scaled then
      some (.float (decimalFloat negative (decimalValue (whole ++ fraction)) (power - fraction.length)), cs)
    else some (wholeNumber negative (decimalValue whole), cs)

/-- Characters of a string up to its closing quote, newest first. -/
def stringBody : Nat → List Char → List Char → Option (List Char × List Char)
  | 0, _, _ => none
  | _ + 1, _, [] => none
  | _ + 1, acc, '"' :: rest => some (acc, rest)
  | fuel + 1, acc, '\\' :: c :: rest =>
    match c with
    | '"' => stringBody fuel ('"' :: acc) rest
    | '\\' => stringBody fuel ('\\' :: acc) rest
    | '/' => stringBody fuel ('/' :: acc) rest
    | 'b' => stringBody fuel (Char.ofNat 8 :: acc) rest
    | 'f' => stringBody fuel (Char.ofNat 12 :: acc) rest
    | 'n' => stringBody fuel ('\n' :: acc) rest
    | 'r' => stringBody fuel ('\r' :: acc) rest
    | 't' => stringBody fuel ('\t' :: acc) rest
    | 'u' =>
      match fourHex? rest with
      | none => none
      | some (high, rest) =>
        if 0xD800 ≤ high ∧ high < 0xDC00 then
          match rest with
          | '\\' :: 'u' :: rest =>
            match fourHex? rest with
            | some (low, rest) =>
              if 0xDC00 ≤ low ∧ low < 0xE000 then
                stringBody fuel (Char.ofNat (0x10000 + (high - 0xD800) * 0x400 + (low - 0xDC00)) :: acc) rest
              else none
            | none => none
          | _ => none
        else if 0xDC00 ≤ high ∧ high < 0xE000 then none
        else stringBody fuel (Char.ofNat high :: acc) rest
    | _ => none
  | fuel + 1, acc, c :: rest => if c.toNat < 32 then none else stringBody fuel (c :: acc) rest

def stringValue (cs : List Char) : Option (String × List Char) :=
  (stringBody (cs.length + 1) [] cs).map fun r => (String.ofList r.1.reverse, r.2)

mutual
/-- Reads one value; each nested value costs one unit of fuel. -/
def value : Nat → List Char → Option (Json × List Char)
  | 0, _ => none
  | fuel + 1, cs =>
    match skipBlank cs with
    | 'n' :: 'u' :: 'l' :: 'l' :: rest => some (.null, rest)
    | 't' :: 'r' :: 'u' :: 'e' :: rest => some (.bool true, rest)
    | 'f' :: 'a' :: 'l' :: 's' :: 'e' :: rest => some (.bool false, rest)
    | '"' :: rest => (stringValue rest).map fun r => (.string r.1, r.2)
    | '[' :: rest =>
      match skipBlank rest with
      | ']' :: rest => some (.array [], rest)
      | rest => (items fuel [] rest).map fun r => (.array r.1, r.2)
    | '\x7b' :: rest =>
      match skipBlank rest with
      | '\x7d' :: rest => some (.object [], rest)
      | rest => (fields fuel [] rest).map fun r => (.object r.1, r.2)
    | cs => number cs

def items : Nat → List Json → List Char → Option (List Json × List Char)
  | 0, _, _ => none
  | fuel + 1, acc, cs =>
    match value fuel cs with
    | none => none
    | some (j, rest) =>
      match skipBlank rest with
      | ',' :: rest => items fuel (j :: acc) rest
      | ']' :: rest => some ((j :: acc).reverse, rest)
      | _ => none

def fields : Nat → List (String × Json) → List Char → Option (List (String × Json) × List Char)
  | 0, _, _ => none
  | fuel + 1, acc, cs =>
    match skipBlank cs with
    | '"' :: rest =>
      match stringValue rest with
      | none => none
      | some (name, rest) =>
        match skipBlank rest with
        | ':' :: rest =>
          match value fuel rest with
          | none => none
          | some (j, rest) =>
            let acc := withField name j acc
            match skipBlank rest with
            | ',' :: rest => fields fuel acc rest
            | '\x7d' :: rest => some (acc, rest)
            | _ => none
        | _ => none
    | _ => none
end

/-- The value a text denotes, if it is one JSON value and nothing else. -/
def parse? (s : String) : Option Json :=
  let cs := s.toList
  match value (2 * cs.length + 2) cs with
  | some (j, rest) => if (skipBlank rest).isEmpty then some j else none
  | none => none

end FleetCoordination.Json
