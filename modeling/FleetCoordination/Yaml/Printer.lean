import FleetCoordination.Json.Printer
import FleetCoordination.Yaml
import FleetCoordination.Yaml.Cursor
/-!
# Printing YAML

A JSON value as a block of lines: two columns for each level, none for the items of a
sequence. A text is printed plain where it reads back as a text, else in quotes, and as a
literal block where it has several lines.
-/
namespace FleetCoordination.Yaml

/-- How a text is printed. -/
inductive Style
  | plain
  | single
  | double
  | literal
  deriving DecidableEq

/-! ## Choosing a style -/

/-- Words that older documents take for flags. -/
def flagWords : List String :=
  ["y", "Y", "yes", "Yes", "YES", "n", "N", "no", "No", "NO", "true", "True", "TRUE", "false", "False", "FALSE",
    "on", "On", "ON", "off", "Off", "OFF"]

def negatedDigits : List Char → Option Nat
  | '-' :: '0' :: 'x' :: rest => digits? 16 rest
  | '-' :: '0' :: 'o' :: rest => digits? 8 rest
  | '-' :: '0' :: 'b' :: rest => digits? 2 rest
  | _ => none

/-- Whether a plain scalar of this text would be read as a number, or as one that is
not written so. -/
def isNumeric (text : String) : Bool :=
  let cs := text.toList
  let digits := match cs with
    | '-' :: rest => rest
    | cs => unsigned cs
  isZeroFilled digits || (naturalText? text).any (· < Word.count 128) || (negatedDigits cs).any (· ≤ Word.count 127) ||
    (realText? text).isSome

/-- Whether a character is printed as it is. -/
def isPrintable (c : Char) : Bool :=
  let n := c.toNat
  n = 10 || (32 ≤ n && n ≤ 126) || (0xA0 ≤ n && n ≤ 0xD7FF) || (0xE000 ≤ n && n ≤ 0xFFFD && n ≠ 0xFEFF)

/-- Whether something in a text would be taken for an indicator. `before` is the
character in front of it. -/
def hasIndicator : Char → List Char → Bool
  | _, [] => false
  | before, c :: rest =>
    c = ':' && rest.head?.all isGap || c = '#' && isGap before || hasIndicator c rest

def startsWithIndicator : List Char → Bool
  | [] => false
  | c :: rest =>
    c ∈ ['#', ',', '[', ']', '\x7b', '\x7d', '&', '*', '!', '|', '>', '\'', '"', '%', '@', Char.ofNat 0x60] ||
      c ∈ ['?', ':', '-'] && rest.head?.all isGap

def startsLikeDocument (text : String) : Bool := text.startsWith "---" || text.startsWith "..."

/-- Whether two characters follow each other anywhere. -/
def hasPair (f g : Char → Bool) (cs : List Char) : Bool := (cs.zip cs.tail).any fun e => f e.1 && g e.2

def plainAllowed (text : String) : Bool :=
  let cs := text.toList
  let isOpen (c : Char) : Bool := c = ' ' || isBreak c
  cs.all (fun c => isPrintable c && !isBreak c) && !cs.head?.all isOpen && !cs.getLast?.all isOpen &&
    !startsLikeDocument text && !startsWithIndicator cs && !hasIndicator 'x' cs

def singleAllowed (text : String) : Bool :=
  let cs := text.toList
  cs.all isPrintable && !hasPair isBreak (· = ' ') cs && !hasPair (· = ' ') isBreak cs

def literalAllowed (text : String) : Bool :=
  let cs := text.toList
  cs.all isPrintable && !cs.getLast?.all (· = ' ') && !hasPair (· = ' ') isBreak cs

def styleOf (text : String) : Style :=
  if text.contains '\n' then if literalAllowed text then .literal else .double
  else if text ∉ flagWords && text ∉ nullTexts && !isNumeric text && plainAllowed text then .plain
  else if singleAllowed text then .single
  else .double

/-! ## Texts -/

def spaces (n : Nat) : String := String.ofList (List.replicate n ' ')

def escapeCode (letter : Char) (digits n : Nat) : String :=
  let code := (Nat.toDigits 16 n).map Char.toUpper
  String.ofList (['\\', letter] ++ List.replicate (digits - code.length) '0' ++ code)

def escaped (c : Char) : String :=
  let n := c.toNat
  match [(0, "\\0"), (7, "\\a"), (8, "\\b"), (9, "\\t"), (10, "\\n"), (11, "\\v"), (12, "\\f"), (13, "\\r"),
      (27, "\\e"), (34, "\\\""), (92, "\\\\"), (0x85, "\\N"), (0x2028, "\\L"), (0x2029, "\\P")].lookup n with
  | some text => text
  | none =>
    if isPrintable c then c.toString
    else if n < 0x100 then escapeCode 'x' 2 n
    else if n < 0x10000 then escapeCode 'u' 4 n
    else escapeCode 'U' 8 n

/-- A text as a literal block, without the line break at its very end. -/
def literal (indent : Nat) (text : String) : String :=
  let cs := text.toList
  let hint := if cs.head?.any fun c => c = ' ' || isBreak c then "2" else ""
  let chomp := match cs.reverse with
    | '\n' :: c :: _ => if isBreak c then "+" else ""
    | ['\n'] => "+"
    | _ => "-"
  let lines := text.splitOn "\n"
  let lines := if cs.getLast? = some '\n' then lines.dropLast else lines
  "|" ++ hint ++ chomp ++ "\n" ++
    "\n".intercalate (lines.map fun l => if l.isEmpty then "" else spaces indent ++ l)

/-- A text whose further lines are indented by `indent`. -/
def printText (indent : Nat) (text : String) : String :=
  match styleOf text with
  | .plain => text
  | .single => "'" ++ text.replace "'" "''" ++ "'"
  | .double => text.foldl (fun acc c => acc ++ escaped c) "\"" ++ "\""
  | .literal => literal indent text

def floatText (x : Float) : String :=
  if x.isNaN then ".nan"
  else if x.isInf then if x < 0.0 then "-.inf" else ".inf"
  else Json.floatText x

/-! ## Values -/

/-- A key of one short line. -/
def isSimpleKey (text : String) : Bool := text.utf8ByteSize ≤ 128 && !text.any isBreak

/-- A key with its colon. One that is not simple takes a line of its own. -/
def printKey (indent : Nat) (name : String) : String :=
  if isSimpleKey name then printText (indent + 2) name ++ ":"
  else "? " ++ printText (indent + 2) name ++ "\n" ++ spaces indent ++ ":"

mutual

/-- What stands behind a key at `indent`, or behind the dash of an item. -/
def printAfter (indent : Nat) (inItem : Bool) : Json → String
  | .null => " null\n"
  | .bool b => if b then " true\n" else " false\n"
  | .int n => " " ++ toString n ++ "\n"
  | .float x => " " ++ floatText x ++ "\n"
  | .string s => " " ++ printText (indent + 2) s ++ "\n"
  | .array [] => " []\n"
  | .array (j :: rest) =>
    if inItem then " -" ++ printAfter (indent + 2) true j ++ printItems (indent + 2) rest
    else "\n" ++ spaces indent ++ "-" ++ printAfter indent true j ++ printItems indent rest
  | .object [] => " \x7b\x7d\n"
  | .object ((name, j) :: rest) =>
    (if inItem then " " else "\n" ++ spaces (indent + 2)) ++ printKey (indent + 2) name ++
      printAfter (indent + 2) false j ++ printEntries (indent + 2) rest

def printItems (indent : Nat) : List Json → String
  | [] => ""
  | j :: rest => spaces indent ++ "-" ++ printAfter indent true j ++ printItems indent rest

def printEntries (indent : Nat) : List (String × Json) → String
  | [] => ""
  | (name, j) :: rest =>
    spaces indent ++ printKey indent name ++ printAfter indent false j ++ printEntries indent rest

end

/-- A document. -/
def print : Json → String
  | .object (e :: rest) => printEntries 0 (e :: rest)
  | .array (j :: rest) => printItems 0 (j :: rest)
  | j => ((printAfter 0 false j).drop 1).toString

end FleetCoordination.Yaml
