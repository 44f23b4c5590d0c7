/-!
# Places in a text

A cursor stands between two characters and knows its line and its column, both counted
from zero. It moves on by a character, by a run of characters or by a line break.
-/
namespace FleetCoordination.Yaml

def isBreak (c : Char) : Bool :=
  c = '\n' || c = '\r' || c.toNat = 0x85 || c.toNat = 0x2028 || c.toNat = 0x2029

def isBlank (c : Char) : Bool := c = ' ' || c = '\t'

def isGap (c : Char) : Bool := isBlank c || isBreak c

/-- The characters a document may hold. -/
def isPermitted (c : Char) : Bool :=
  let n := c.toNat
  n = 9 || n = 10 || n = 13 || (32 ≤ n && n ≤ 126) || n = 0x85 || (0xA0 ≤ n && n ≤ 0xD7FF) ||
    (0xE000 ≤ n && n ≤ 0xFFFD && n ≠ 0xFEFF) || 0x10000 ≤ n

structure Cursor where
  rest : List Char
  line : Nat := 0
  column : Nat := 0
  offset : Nat := 0

namespace Cursor

/-- Whether a character stands alone here: a gap follows it. -/
def atLone (c : Char) (p : Cursor) : Bool := p.rest.head? = some c && p.rest.tail.head?.all isGap

/-- Whether a line starts here with the mark of a document's start or end. -/
def atMark (mark : Char) (p : Cursor) : Bool :=
  p.column = 0 &&
    match p.rest with
    | a :: b :: c :: rest => a = mark && b = mark && c = mark && rest.head?.all isGap
    | _ => false

def atDocumentMark (p : Cursor) : Bool := p.atMark '-' || p.atMark '.'

/-- Moves on by `n` characters of one line. -/
def skip (p : Cursor) (n : Nat := 1) : Cursor :=
  { p with rest := p.rest.drop n, column := p.column + n, offset := p.offset + n }

def skipWhile (f : Char → Bool) (p : Cursor) : Cursor := p.skip (p.rest.takeWhile f).length

/-- Moves on by a line break, which may be a pair of characters. -/
def skipLine (p : Cursor) : Cursor :=
  match p.rest with
  | '\r' :: '\n' :: rest => { rest, line := p.line + 1, column := 0, offset := p.offset + 2 }
  | _ :: rest => { rest, line := p.line + 1, column := 0, offset := p.offset + 1 }
  | [] => p

/-- The line break as it counts in a scalar. -/
def lineBreak (p : Cursor) : Char :=
  match p.rest with
  | c :: _ => if c.toNat = 0x2028 || c.toNat = 0x2029 then c else '\n'
  | [] => '\n'

end Cursor

end FleetCoordination.Yaml
