import FleetCoordination.Json.Reader
import FleetCoordination.Yaml.Cursor
/-!
# Scalars

How the text of a scalar is read: plain, in quotes, or as a block of lines. Inside plain
and quoted scalars a line break folds to a space, and each further one stays.
-/
namespace FleetCoordination.Yaml

/-! ## Folding -/

/-- What separates two words of a scalar. -/
inductive Separation
  | blanks (cs : List Char)
  /-- Line breaks. The first is missing if it was escaped. -/
  | breaks (first : Option Char) (others : List Char)

namespace Separation

def isBroken : Separation → Bool
  | blanks _ => false
  | breaks _ _ => true

def text : Separation → List Char
  | blanks cs => cs
  | breaks (some '\n') [] => [' ']
  | breaks (some '\n') others => others
  | breaks first others => first.toList ++ others

def blank (c : Char) : Separation → Separation
  | blanks cs => blanks (cs ++ [c])
  | s => s

def lineBreak (c : Char) : Separation → Separation
  | blanks _ => breaks (some c) []
  | breaks first others => breaks first (others ++ [c])

end Separation

/-- Reads blanks and line breaks on from `s`. A tab must not stand in for indentation. -/
def separation (indent : Nat) : Nat → Separation → Cursor → Option (Separation × Cursor)
  | 0, _, _ => none
  | fuel + 1, s, p =>
    match p.rest with
    | [] => some (s, p)
    | c :: _ =>
      if isBlank c then
        if s.isBroken && c = '\t' && decide (p.column < indent) then none
        else separation indent fuel (s.blank c) p.skip
      else if isBreak c then separation indent fuel (s.lineBreak p.lineBreak) p.skipLine
      else some (s, p)

/-- A scalar's text with the place behind it. -/
structure ScalarText where
  text : List Char
  cursor : Cursor
  /-- Whether a new line was reached. -/
  broken : Bool := false

/-! ## Plain scalars -/

/-- Characters that end a plain scalar in a flow collection. -/
def flowIndicators : List Char := [',', '[', ']', '\x7b', '\x7d']

/-- The characters of a plain scalar up to the next gap or indicator. -/
def plainWord (flow : Bool) : List Char → Option (List Char)
  | [] => some []
  | c :: rest =>
    if isGap c || (c = ':' && rest.head?.all isGap) then some []
    else if flow && c = ':' && rest.head?.any fun d => d = '?' || d ∈ flowIndicators then none
    else if flow && decide (c ∈ flowIndicators) then some []
    else (plainWord flow rest).map (c :: ·)

def plainWords (flow : Bool) (indent : Nat) : Nat → List Char → Separation → Cursor → Option ScalarText
  | 0, _, _, _ => none
  | fuel + 1, text, s, p => do
    let last : ScalarText := { text, cursor := p, broken := s.isBroken }
    if p.atDocumentMark || p.rest.head? = some '#' then return last
    let word ← plainWord flow p.rest
    if word.isEmpty then return last
    let text := text ++ s.text ++ word
    let (s, p) ← separation indent (p.rest.length + 1) (.blanks []) (p.skip word.length)
    if p.rest.isEmpty || (!flow && decide (p.column < indent)) then
      return { text, cursor := p, broken := s.isBroken }
    plainWords flow indent fuel text s p

/-- A plain scalar; its lines after the first are indented by `indent` at least. -/
def plainScalar (flow : Bool) (indent : Nat) (p : Cursor) : Option ScalarText :=
  plainWords flow indent (p.rest.length + 1) [] (.blanks []) p

/-! ## Quoted scalars -/

/-- The character with a code of so many hexadecimal digits. -/
def codedChar? (digits : Nat) (cs : List Char) : Option Char := do
  let ds := cs.take digits
  if ds.length < digits then none
  else
    let code := (← ds.mapM Json.hexValue?).foldl (fun n d => 16 * n + d) 0
    if (0xD800 ≤ code ∧ code < 0xE000) ∨ 0x10FFFF < code then none else some (Char.ofNat code)

/-- The character that is escaped at the start of a text, with the length of the escape. -/
def escape? : List Char → Option (Char × Nat)
  | '0' :: _ => some (Char.ofNat 0, 1)
  | 'a' :: _ => some (Char.ofNat 7, 1)
  | 'b' :: _ => some (Char.ofNat 8, 1)
  | 't' :: _ => some ('\t', 1)
  | '\t' :: _ => some ('\t', 1)
  | 'n' :: _ => some ('\n', 1)
  | 'v' :: _ => some (Char.ofNat 11, 1)
  | 'f' :: _ => some (Char.ofNat 12, 1)
  | 'r' :: _ => some ('\r', 1)
  | 'e' :: _ => some (Char.ofNat 27, 1)
  | ' ' :: _ => some (' ', 1)
  | '"' :: _ => some ('"', 1)
  | '/' :: _ => some ('/', 1)
  | '\\' :: _ => some ('\\', 1)
  | 'N' :: _ => some (Char.ofNat 0x85, 1)
  | '_' :: _ => some (Char.ofNat 0xA0, 1)
  | 'L' :: _ => some (Char.ofNat 0x2028, 1)
  | 'P' :: _ => some (Char.ofNat 0x2029, 1)
  | 'x' :: rest => (codedChar? 2 rest).map (·, 3)
  | 'u' :: rest => (codedChar? 4 rest).map (·, 5)
  | 'U' :: rest => (codedChar? 8 rest).map (·, 9)
  | _ => none

def separated (text : List Char) (s : Separation) (p : Cursor) : Option ScalarText := do
  let (s, p) ← separation 0 (p.rest.length + 1) s p
  some { text := text ++ s.text, cursor := p }

/-- The text up to the closing quote. -/
def quotedBody (quote : Char) : Nat → List Char → Cursor → Option ScalarText
  | 0, _, _ => none
  | fuel + 1, text, p =>
    if p.atDocumentMark then none
    else
      match p.rest with
      | [] => none
      | c :: rest =>
        if c = quote then
          if quote = '\'' && rest.head? = some '\'' then quotedBody quote fuel (text ++ ['\'']) (p.skip 2)
          else some { text, cursor := p.skip }
        else if quote = '"' && c = '\\' then
          if rest.head?.any isBreak then do
            let r ← separated text (.breaks none []) p.skip.skipLine
            quotedBody quote fuel r.text r.cursor
          else do
            let (d, n) ← escape? rest
            quotedBody quote fuel (text ++ [d]) (p.skip (n + 1))
        else if isGap c then do
          let r ← separated text (.blanks []) p
          quotedBody quote fuel r.text r.cursor
        else quotedBody quote fuel (text ++ [c]) p.skip

/-- A quoted scalar; the cursor stands at its opening quote. -/
def quotedScalar (quote : Char) (p : Cursor) : Option ScalarText :=
  quotedBody quote (p.rest.length + 1) [] p.skip

/-! ## Blocks of lines -/

/-- What becomes of the line breaks at the end of a block. -/
inductive Chomp
  | strip
  | clip
  | keep
  deriving DecidableEq

structure BlockHeader where
  chomp : Chomp := .clip
  increment : Option Nat := none

def chomp? : Char → Option Chomp
  | '-' => some .strip
  | '+' => some .keep
  | _ => none

def increment? (c : Char) : Option Nat := if '1' ≤ c ∧ c ≤ '9' then some (c.toNat - '0'.toNat) else none

/-- The header behind the indicator, with its length. -/
def blockHeader : List Char → BlockHeader × Nat
  | c :: d :: _ =>
    match chomp? c, increment? c, chomp? d, increment? d with
    | some chomp, _, _, some n => ({ chomp, increment := some n }, 2)
    | some chomp, _, _, none => ({ chomp }, 1)
    | none, some n, some chomp, _ => ({ chomp, increment := some n }, 2)
    | none, some n, none, _ => ({ increment := some n }, 1)
    | none, none, _, _ => ({}, 0)
  | [c] => ({ chomp := (chomp? c).getD .clip, increment := increment? c }, if (chomp? c).isSome || (increment? c).isSome then 1 else 0)
  | [] => ({}, 0)

/-- Reads the empty lines before a line of a block whose indentation is known. -/
def emptyLines (indent : Nat) : Nat → List Char → Cursor → Option (List Char × Cursor)
  | 0, _, _ => none
  | fuel + 1, breaks, p =>
    let p := p.skip ((p.rest.takeWhile (· = ' ')).take (indent - p.column)).length
    match p.rest with
    | c :: _ =>
      if c = '\t' && decide (p.column < indent) then none
      else if isBreak c then emptyLines indent fuel (breaks ++ [p.lineBreak]) p.skipLine
      else some (breaks, p)
    | [] => some (breaks, p)

/-- Reads the empty lines before the first line of a block; the most indented of all
these lines tells the indentation. -/
def leadingLines (least : Nat) : Nat → Nat → List Char → Cursor → Option (Nat × List Char × Cursor)
  | 0, _, _, _ => none
  | fuel + 1, deepest, breaks, p =>
    let p := p.skipWhile (· = ' ')
    let deepest := max deepest p.column
    match p.rest with
    | c :: _ =>
      if c = '\t' then none
      else if isBreak c then leadingLines least fuel deepest (breaks ++ [p.lineBreak]) p.skipLine
      else some (max deepest least, breaks, p)
    | [] => some (max deepest least, breaks, p)

/-- The lines of a block that have been read. -/
structure BlockText where
  text : List Char := []
  /-- The break behind the last line. -/
  ending : List Char := []
  /-- The empty lines behind it. -/
  trailing : List Char := []
  /-- Whether the last line began with a blank. -/
  blank : Bool := false

/-- What is put before a further line, folded in all but literal blocks. -/
def BlockText.joint (b : BlockText) (literal blank : Bool) : List Char :=
  if !literal && b.ending = ['\n'] && !b.blank && !blank then
    if b.trailing.isEmpty then [' '] else b.trailing
  else b.ending ++ b.trailing

def blockLines (literal : Bool) (indent : Nat) : Nat → BlockText → Cursor → Option (BlockText × Cursor)
  | 0, _, _ => none
  | fuel + 1, b, p =>
    if p.column = indent && !p.rest.isEmpty then do
      let blank := p.rest.head?.any isBlank
      let line := p.rest.takeWhile (!isBreak ·)
      let q := p.skip line.length
      let ending := if q.rest.isEmpty then [] else [q.lineBreak]
      let (trailing, q) ← emptyLines indent (q.rest.length + 1) [] q.skipLine
      blockLines literal indent fuel { text := b.text ++ b.joint literal blank ++ line, ending, trailing, blank } q
    else some (b, p)

/-- A block of lines; the cursor stands at its indicator. `parent` is the indentation
that the block must exceed, plus one. -/
def blockScalar (literal : Bool) (parent : Nat) (p : Cursor) : Option ScalarText := do
  let (header, length) := blockHeader p.rest.tail
  let p := (p.skip (1 + length)).skipWhile isBlank
  let p := if p.rest.head? = some '#' then p.skipWhile (!isBreak ·) else p
  if !p.rest.head?.all isBreak then none
  else
    let p := p.skipLine
    let fuel := p.rest.length + 1
    let (indent, trailing, p) ← match header.increment with
      | some n => (emptyLines (parent - 1 + n) fuel [] p).map (parent - 1 + n, ·)
      | none => leadingLines (max parent 1) fuel 0 [] p
    let (b, p) ← blockLines literal indent fuel { trailing } p
    let ending := match header.chomp with
      | .strip => []
      | .clip => b.ending
      | .keep => b.ending ++ b.trailing
    some { text := b.text ++ ending, cursor := p, broken := true }

end FleetCoordination.Yaml
