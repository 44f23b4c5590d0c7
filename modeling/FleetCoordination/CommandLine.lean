import FleetCoordination.Fleet.Simulation
import FleetCoordination.Manifest.Discovery
import FleetCoordination.Yaml
/-!
# The command line

The words of a command line as a request. Words are read level by level: a level has its
flags, takes some words, and may lead to a further level by the name of a command. The
flags of the first level are known at every level, and the innermost one counts.
-/
namespace FleetCoordination.CommandLine

/-! ## Levels -/

structure Flag where
  name : String
  letter : Option Char := none
  /-- Whether a value follows. -/
  valued : Bool := false

inductive Level
  | program
  | config
  | display
  | validate
  | generate
  | simulate
  deriving DecidableEq

/-- The flags that every level knows. -/
def sharedFlags : List Flag :=
  [⟨"config", some 'c', true⟩, ⟨"log-level", none, true⟩, ⟨"log-format", none, true⟩]

def helpFlags : List Flag := [⟨"help", some 'h', false⟩, ⟨"version", some 'V', false⟩]

namespace Level

def ownFlags : Level → List Flag
  | program | config | validate => []
  | display => [⟨"paths", none, false⟩, ⟨"yaml", none, false⟩]
  | generate => [⟨"output", some 'o', true⟩, ⟨"examples", none, false⟩, ⟨"force", none, false⟩]
  | simulate =>
    [⟨"agents", none, true⟩, ⟨"seconds", none, true⟩, ⟨"fail-primary", none, false⟩, ⟨"fail-after", none, true⟩,
      ⟨"cycle-seconds", none, true⟩, ⟨"decision-every", none, true⟩, ⟨"metrics-port", none, true⟩,
      ⟨"json", none, false⟩]

def flags (l : Level) : List Flag := l.ownFlags ++ sharedFlags ++ helpFlags

/-- The commands that lead on. -/
def commands : Level → List (String × Level)
  | program => [("config", config), ("simulate", simulate)]
  | config => [("show", display), ("validate", validate), ("generate", generate)]
  | display | validate | generate | simulate => []

/-- How many words that are no flags are taken. -/
def room : Level → Nat
  | validate => 1
  | _ => 0

/-- Whether a level can be the last. -/
def final (l : Level) : Bool := l ≠ config

end Level

/-- What was said at one level: its flags with their values, and its words. -/
structure Said where
  level : Level
  flags : List (String × String) := []
  words : List String := []

inductive Refusal
  /-- The words make no sense. -/
  | usage
  /-- Help was asked for. -/
  | help

def Said.add (s : Said) (name value : String) : Except Refusal Said :=
  if name = "help" ∨ name = "version" then .error .help
  else if (s.flags.lookup name).isSome then .error .usage
  else .ok { s with flags := s.flags ++ [(name, value)] }

def startsWithDash (word : String) : Bool := word.startsWith "-" && decide (word ≠ "-")

/-- The value in the next word, with the words behind it. -/
def valueOf (rest : List String) : Except Refusal (String × List String) :=
  match rest with
  | v :: rest => if startsWithDash v then .error .usage else .ok (v, rest)
  | [] => .error .usage

/-- A flag that is spelled out, with its value behind an equals sign or in the next word. -/
def longFlag (s : Said) (body : String) (rest : List String) : Except Refusal (Said × List String) := do
  let parts := body.splitOn "="
  let name := parts.headD ""
  match s.level.flags.find? fun f => f.name = name with
  | none => .error .usage
  | some f =>
    if f.valued then
      match parts with
      | [_] => do
        let (v, rest) ← valueOf rest
        pure (← s.add name v, rest)
      | _ => pure (← s.add name ("=".intercalate (parts.drop 1)), rest)
    else if parts.length = 1 then pure (← s.add name "", rest)
    else .error .usage

/-- Flags that are given by letters. What stands behind the letter of a valued flag is its value. -/
def letterFlags : List Char → Said → List String → Except Refusal (Said × List String)
  | [], s, rest => .ok (s, rest)
  | c :: cs, s, rest =>
    match s.level.flags.find? fun f => f.letter = some c with
    | none => .error .usage
    | some f =>
      if f.valued then
        match cs with
        | [] => do
          let (v, rest) ← valueOf rest
          pure (← s.add f.name v, rest)
        | '=' :: v => do pure (← s.add f.name (String.ofList v), rest)
        | v => do pure (← s.add f.name (String.ofList v), rest)
      else do letterFlags cs (← s.add f.name "") rest

/-- Takes a word that is no flag. -/
def Said.take (s : Said) (word : String) : Except Refusal Said :=
  if s.words.length < s.level.room then .ok { s with words := s.words ++ [word] } else .error .usage

/-- What is said at a level and at those it leads to, the innermost last. After two
dashes all words are taken as they are. -/
def read : Nat → Said → List String → Except Refusal (List Said)
  | 0, _, _ => .error .usage
  | _, s, [] => if s.level.final then .ok [s] else .error .usage
  | fuel + 1, s, word :: rest =>
    if word = "--" then do
      let s ← rest.foldlM Said.take s
      if s.level.final then pure [s] else .error .usage
    else if word.startsWith "--" then do
      let (s, rest) ← longFlag s (word.drop 2).toString rest
      read fuel s rest
    else if startsWithDash word then do
      let (s, rest) ← letterFlags (word.toList.drop 1) s rest
      read fuel s rest
    else
      match s.level.commands.lookup word with
      | some level => do pure (s :: (← read fuel { level } rest))
      | none =>
        if word = "help" && !s.level.commands.isEmpty then .error .help
        else do read fuel (← s.take word) rest

/-! ## Requests -/

inductive Request
  /-- Nothing is asked for. -/
  | nothing
  | display (paths yaml : Bool)
  | validate (file : Option String)
  | generate (output : String) (examples force : Bool)
  | simulate (o : Simulation.Options)

structure Invocation where
  config : Option String
  logFormat : String
  request : Request

/-- The innermost value of a shared flag. -/
def innermost (said : List Said) (name : String) : Option String := said.reverse.findSome? fun s => s.flags.lookup name

/-- A path must not be empty. -/
def pathOf (text : String) : Except Refusal String := if text.isEmpty then .error .usage else .ok text

/-- A whole number in decimal digits, below a bound. -/
def number? (bound : Nat) (text : String) : Option Nat :=
  (Yaml.digits? 10 (Yaml.unsigned text.toList)).filter fun n => n < bound

def numberOf (s : Said) (name : String) (standard : Nat) (bound : Nat := Word.count 64) : Except Refusal Nat :=
  match s.flags.lookup name with
  | none => .ok standard
  | some text =>
    match number? bound text with
    | some n => .ok n
    | none => .error .usage

def Said.has (s : Said) (name : String) : Bool := (s.flags.lookup name).isSome

def optionsOf (s : Said) : Except Refusal Simulation.Options := do
  let o : Simulation.Options := {}
  let agents ← numberOf s "agents" o.agents
  let seconds ← numberOf s "seconds" o.seconds
  let failAfter ← numberOf s "fail-after" o.failAfter
  let cycleSeconds ← numberOf s "cycle-seconds" o.cycleSeconds
  let decisionEvery ← numberOf s "decision-every" o.decisionEvery
  let _ ← numberOf s "metrics-port" 0 (Word.count 16)
  pure { agents, seconds, failAfter, cycleSeconds, decisionEvery, failPrimary := s.has "fail-primary",
         json := s.has "json" }

def requestOf (s : Said) : Except Refusal Request :=
  match s.level with
  | .program | .config => .ok .nothing
  | .display => .ok (.display (s.has "paths") (s.has "yaml"))
  | .validate => do pure (.validate (← s.words.head?.mapM pathOf))
  | .generate => do
    let output ← pathOf ((s.flags.lookup "output").getD Manifest.usualPath)
    pure (.generate output (s.has "examples") (s.has "force"))
  | .simulate => (optionsOf s).map .simulate

/-- The path of the manifest: said, or from the environment. Every level that is not
told looks there, and the variable must not be empty. -/
def configOf (vars : Variables) (said : List Said) : Except Refusal (Option String) := do
  for s in said do
    let _ ← (s.flags.lookup "config").mapM pathOf
  let fallback := vars.get? Manifest.pathVariable
  if fallback = some "" && said.any (!Said.has · "config") then .error .usage
  else pure ((innermost said "config").orElse fun _ => fallback)

/-- The request a command line makes. -/
def parse (vars : Variables) (words : List String) : Except Refusal Invocation := do
  let said ← read (words.length + 1) { level := .program } words
  let config ← configOf vars said
  let logFormat := ((innermost said "log-format").orElse fun _ => vars.get? "CONSTELLATION_LOG_FORMAT").getD "text"
  match said.getLast? with
  | some s => pure { config, logFormat, request := ← requestOf s }
  | none => .error .usage

end FleetCoordination.CommandLine
