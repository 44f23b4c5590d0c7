import FleetCoordination.Yaml.Scalar
/-!
# Tokens

A text as a list of tokens. Indentation becomes tokens that open and close block
collections. Whether a token is a key is known only at the colon behind it, so the key's
token is put in front of it then.
-/
namespace FleetCoordination.Yaml

inductive Token
  | documentStart
  | documentEnd
  | blockSequence
  | blockMapping
  | blockEnd
  | flowSequence
  | flowSequenceEnd
  | flowMapping
  | flowMappingEnd
  | entry
  | flowEntry
  | key
  | value
  | scalar (plain : Bool) (text : String)
  deriving DecidableEq

/-- A place where a key may have begun. -/
structure Candidate where
  /-- How many tokens came before it. -/
  position : Nat
  /-- Whether nothing but a key can stand there. -/
  required : Bool
  line : Nat
  column : Nat
  offset : Nat

structure Scanner where
  cursor : Cursor
  tokens : Array Token := #[]
  /-- Columns of the block collections that are open, the innermost first. -/
  indents : List Nat := []
  /-- Whether a key may begin here. -/
  keyAllowed : Bool := true
  /-- The candidate of every open flow collection, the innermost first, and of the block around them. -/
  candidates : List (Option Candidate) := [none]

namespace Scanner

def inFlow (s : Scanner) : Bool := 1 < s.candidates.length

/-- One more than the column of the innermost block collection, nought outside of all. -/
def least (s : Scanner) : Nat :=
  match s.indents with
  | i :: _ => i + 1
  | [] => 0

def emit (s : Scanner) (t : Token) : Scanner := { s with tokens := s.tokens.push t }

def insert (s : Scanner) (position : Nat) (ts : Array Token) : Scanner :=
  { s with tokens := s.tokens.extract 0 position ++ ts ++ s.tokens.extract position s.tokens.size }

def advance (s : Scanner) (n : Nat := 1) : Scanner := { s with cursor := s.cursor.skip n }

/-! ## Indentation -/

/-- Closes the block collections that reach further right than `column`. -/
def closeTo (s : Scanner) (column : Nat) : Scanner :=
  if s.inFlow then s
  else
    let closed := s.indents.takeWhile (column < ·)
    { s with tokens := s.tokens ++ (closed.map fun _ => Token.blockEnd).toArray, indents := s.indents.drop closed.length }

def closeAll (s : Scanner) : Scanner :=
  if s.inFlow then s
  else { s with tokens := s.tokens ++ (s.indents.map fun _ => Token.blockEnd).toArray, indents := [] }

/-- Whether a block collection at `column` is not open yet. -/
def opens (s : Scanner) (column : Nat) : Bool := !s.inFlow && decide (s.least ≤ column)

/-- Opens a block collection at `column`, unless it is open. -/
def openAt (s : Scanner) (column position : Nat) (t : Token) : Scanner :=
  if s.opens column then { s.insert position #[t] with indents := column :: s.indents } else s

/-! ## Keys -/

/-- A candidate must be followed by its colon on its line and within 1024 characters. -/
def isStale (s : Scanner) (c : Candidate) : Bool :=
  c.line < s.cursor.line || c.offset + 1024 < s.cursor.offset

/-- Gives up a candidate. That is not possible where a key is required. -/
def giveUp : Option Candidate → Option (Option Candidate)
  | some c => if c.required then none else some none
  | none => some none

def dropStale (s : Scanner) : Option Scanner := do
  let candidates ← s.candidates.mapM fun c => if c.any s.isStale then giveUp c else some c
  some { s with candidates }

/-- Replaces the innermost candidate. -/
def withCandidate (s : Scanner) (c : Option Candidate) : Option Scanner :=
  match s.candidates with
  | old :: outer => (giveUp old).map fun _ => { s with candidates := c :: outer }
  | [] => none

def dropCandidate (s : Scanner) : Option Scanner := s.withCandidate none

/-- Notes that a key may begin here. -/
def noteCandidate (s : Scanner) : Option Scanner :=
  if s.keyAllowed then
    let p := s.cursor
    s.withCandidate (some
      { position := s.tokens.size, required := !s.inFlow && s.indents.head? = some p.column,
        line := p.line, column := p.column, offset := p.offset })
  else some s

/-! ## Between tokens -/

/-- Skips blanks, comments and line breaks. In a block a new line allows a key. -/
def skipGap : Nat → Scanner → Scanner
  | 0, s => s
  | fuel + 1, s =>
    let p := s.cursor.skipWhile fun c => c = ' ' || ((s.inFlow || !s.keyAllowed) && c = '\t')
    let p := if p.rest.head? = some '#' then p.skipWhile (!isBreak ·) else p
    if p.rest.head?.any isBreak then
      skipGap fuel { s with cursor := p.skipLine, keyAllowed := s.keyAllowed || !s.inFlow }
    else { s with cursor := p }

/-! ## Tokens of each kind -/

def documentMark (s : Scanner) (t : Token) : Option Scanner := do
  let s ← s.closeAll.dropCandidate
  some ({ s with keyAllowed := false }.emit t |>.advance 3)

def openFlow (s : Scanner) (t : Token) : Option Scanner := do
  let s ← s.noteCandidate
  some ({ s with candidates := none :: s.candidates, keyAllowed := true }.emit t |>.advance)

def closeFlow (s : Scanner) (t : Token) : Option Scanner := do
  let s ← s.dropCandidate
  let candidates := if s.inFlow then s.candidates.drop 1 else s.candidates
  some ({ s with candidates, keyAllowed := false }.emit t |>.advance)

def flowEntry (s : Scanner) : Option Scanner := do
  let s ← s.dropCandidate
  some ({ s with keyAllowed := true }.emit .flowEntry |>.advance)

def blockEntry (s : Scanner) : Option Scanner := do
  if !s.inFlow && !s.keyAllowed then none
  else
    let s ← (s.openAt s.cursor.column s.tokens.size .blockSequence).dropCandidate
    some ({ s with keyAllowed := true }.emit .entry |>.advance)

def explicitKey (s : Scanner) : Option Scanner := do
  if !s.inFlow && !s.keyAllowed then none
  else
    let s ← (s.openAt s.cursor.column s.tokens.size .blockMapping).dropCandidate
    some ({ s with keyAllowed := !s.inFlow }.emit .key |>.advance)

def value (s : Scanner) : Option Scanner :=
  match s.candidates with
  | some c :: outer =>
    let s := { s.insert c.position #[.key] with candidates := none :: outer, keyAllowed := false }
    some ((s.openAt c.column c.position .blockMapping).emit .value |>.advance)
  | _ =>
    if !s.inFlow && !s.keyAllowed then none
    else
      let s := s.openAt s.cursor.column s.tokens.size .blockMapping
      some ({ s with keyAllowed := !s.inFlow }.emit .value |>.advance)

def put (s : Scanner) (plain : Bool) (t : ScalarText) : Scanner :=
  { s.emit (.scalar plain (String.ofList t.text)) with cursor := t.cursor, keyAllowed := t.broken }

def quoted (s : Scanner) (quote : Char) : Option Scanner := do
  let s ← s.noteCandidate
  (quotedScalar quote s.cursor).map (s.put false)

def plain (s : Scanner) : Option Scanner := do
  let s ← s.noteCandidate
  (plainScalar s.inFlow s.least s.cursor).map (s.put true)

def block (s : Scanner) (literal : Bool) : Option Scanner := do
  let s ← s.dropCandidate
  (blockScalar literal s.least s.cursor).map (s.put false)

/-- Characters that no plain scalar begins with. -/
def indicators : List Char :=
  ['-', '?', ':', ',', '[', ']', '\x7b', '\x7d', '#', '&', '*', '!', '|', '>', '\'', '"', '%', '@', Char.ofNat 0x60]

/-- Whether a plain scalar begins here. -/
def atPlain (s : Scanner) (c : Char) : Bool :=
  decide (c ∉ indicators) && !isGap c || c = '-' && !s.cursor.rest.tail.head?.any isBlank ||
    !s.inFlow && (c = '?' || c = ':') && !s.cursor.rest.tail.head?.all isGap

/-- Reads the next token. Anchors, aliases, tags and directives are not known. -/
def token (s : Scanner) (c : Char) : Option Scanner :=
  let p := s.cursor
  if p.atMark '-' then s.documentMark .documentStart
  else if p.atMark '.' then s.documentMark .documentEnd
  else if c = '[' then s.openFlow .flowSequence
  else if c = '\x7b' then s.openFlow .flowMapping
  else if c = ']' then s.closeFlow .flowSequenceEnd
  else if c = '\x7d' then s.closeFlow .flowMappingEnd
  else if c = ',' then s.flowEntry
  else if p.atLone '-' then s.blockEntry
  else if p.atLone '?' || s.inFlow && c = '?' then s.explicitKey
  else if p.atLone ':' || s.inFlow && c = ':' then s.value
  else if !s.inFlow && c = '|' then s.block true
  else if !s.inFlow && c = '>' then s.block false
  else if c = '\'' || c = '"' then s.quoted c
  else if s.atPlain c then s.plain
  else none

def run : Nat → Scanner → Option (List Token)
  | 0, _ => none
  | fuel + 1, s => do
    let s ← (skipGap (s.cursor.rest.length + 1) s).dropStale
    match s.cursor.rest with
    | [] => (← s.closeAll.dropCandidate).tokens.toList
    | c :: _ => run fuel (← (s.closeTo s.cursor.column).token c)

end Scanner

/-- The tokens of a text. -/
def tokens? (text : String) : Option (List Token) :=
  let cs := text.toList
  let cs := if cs.head? = some (Char.ofNat 0xFEFF) then cs.tail else cs
  if cs.all isPermitted then Scanner.run (cs.length + 1) { cursor := { rest := cs } } else none

end FleetCoordination.Yaml
