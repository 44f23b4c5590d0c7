import FleetCoordination.CommandLine
import FleetCoordination.Manifest.Overview
import FleetCoordination.Manifest.Sample
import FleetCoordination.Manifest.Validation
import FleetCoordination.Manifest.Writer
import FleetCoordination.Yaml.Printer
/-!
# What commands do

Every command as a function of the disk and the environment: what it prints, what it
writes, and why it fails if it does.
-/
namespace FleetCoordination.CommandLine

/-- What a command was at when it failed, and the cause if that is known. -/
structure Failure where
  task : String
  cause : Option String := none

def Failure.message (f : Failure) : String :=
  match f.cause with
  | some cause => f.task ++ ": " ++ cause
  | none => f.task

inductive Ending
  | done
  /-- There was nothing to do. -/
  | idle
  | failed (f : Failure)
  /-- The program has stopped on a fault of its own. -/
  | halted

structure Outcome where
  lines : List Simulation.Line := []
  ending : Ending := .done
  /-- The disk afterwards. -/
  disk : Disk
  /-- A file that was written, with its text. -/
  written : Option (String × String) := none

/-- The surroundings of a command. -/
structure Surroundings where
  disk : Disk := {}
  environment : Variables := {}
  host : Manifest.Host := {}

def texts (ls : List String) : List Simulation.Line := ls.map .text

/-- A path in quotes, with what is not printed as it is escaped. -/
def quotedPath (path : String) : String :=
  let escaped (c : Char) : String :=
    match c with
    | '"' => "\\\""
    | '\\' => "\\\\"
    | '\n' => "\\n"
    | '\r' => "\\r"
    | '\t' => "\\t"
    | c =>
      if c.toNat = 0 then "\\0"
      else if c.toNat < 32 ∨ c.toNat = 127 then "\\u\x7b" ++ String.ofList (Nat.toDigits 16 c.toNat) ++ "\x7d"
      else c.toString
  "\"" ++ path.foldl (fun acc c => acc ++ escaped c) "" ++ "\""

namespace Surroundings

def load? (s : Surroundings) (config : Option String) : Option Manifest :=
  Manifest.load? s.disk s.environment s.host config

def outcome (s : Surroundings) (lines : List String) : Outcome := { lines := texts lines, disk := s.disk }

def failure (s : Surroundings) (lines : List String) (task : String) (cause : Option String := none) : Outcome :=
  { lines := texts lines, ending := .failed { task, cause }, disk := s.disk }

def notLoaded : String := "Failed to load configuration"
def notValid : String := "Configuration validation failed"

def display (s : Surroundings) (config : Option String) (paths yaml : Bool) : Outcome :=
  match s.load? config with
  | none => s.failure [] notLoaded
  | some m =>
    let found := if paths then Manifest.pathLines config (s.environment.get? Manifest.pathVariable) else []
    let text := if yaml then (Yaml.print m.toJson).splitOn "\n" |>.dropLast else m.overview
    s.outcome (found ++ text)

def validate (s : Surroundings) (config : Option String) : Outcome :=
  let opening := "Validating configuration..."
  match s.load? config with
  | none => s.failure [opening] notLoaded
  | some m =>
    match m.fault? with
    | some f => s.failure [opening] notValid f.message
    | none => s.outcome [opening, "✓ Configuration is valid"]

def generate (s : Surroundings) (output : String) (examples force : Bool) : Outcome :=
  if s.disk.exists? output && !force then s.failure [] (output ++ " already exists; pass --force to overwrite")
  else
    let text := Manifest.sampleText examples
    match s.disk.write? output text with
    | none => s.failure [] ("Failed to write config to " ++ quotedPath output)
    | some disk =>
      { lines := texts ["✓ Configuration generated: " ++ output], disk, written := some (output, text) }

def simulate (s : Surroundings) (config : Option String) (o : Simulation.Options) : Outcome :=
  if o.agents = 0 then s.failure [] "--agents must be at least 1"
  else
    match s.load? config with
    | none => s.failure [] notLoaded
    | some m =>
      match m.fault? with
      | some f => s.failure [] notValid f.message
      | none =>
        let (lines, ending) := Simulation.run m o
        let ending := match ending with
          | .done => .done
          | .notStarted agent cause => .failed { task := "Failed to start node " ++ agent, cause := some cause.message }
          | .halted => .halted
        { lines, ending, disk := s.disk }

def perform (s : Surroundings) (i : Invocation) : Outcome :=
  if i.logFormat ∈ ["text", "json"] then
    match i.request with
    | .nothing => { ending := .idle, disk := s.disk }
    | .display paths yaml => s.display i.config paths yaml
    | .validate file => s.validate (file.orElse fun _ => i.config)
    | .generate output examples force => s.generate output examples force
    | .simulate o => s.simulate i.config o
  else s.failure [] s!"Unsupported log format '{i.logFormat}': expected 'text' or 'json'"

end Surroundings

/-! ## What the caller sees -/

/-- What a command line comes to: the text it prints, the text of its complaint, and its
exit code. -/
structure Report where
  code : Nat
  printed : String := ""
  complaint : String := ""
  written : Option (String × String) := none

/-- A failure with its cause set off below it. -/
def Failure.complaint (f : Failure) : String :=
  "Error: " ++ f.task ++ "\n" ++ ((f.cause.map fun c => "\nCaused by:\n    " ++ c ++ "\n").getD "")

def usageText : String :=
  "Usage: constellation [--config FILE] [--log-level LEVEL] [--log-format FORMAT] COMMAND\n\n" ++
    "Commands:\n  config show|validate|generate\n  simulate\n"

def report (s : Surroundings) (words : List String) : Report :=
  match parse s.environment words with
  | .error .usage => { code := 2, complaint := usageText }
  | .error .help => { code := 0, printed := usageText }
  | .ok i =>
    let o := s.perform i
    let printed := String.join (o.lines.map fun l => l.print ++ "\n")
    match o.ending with
    | .done => { code := 0, printed, written := o.written }
    | .halted => { code := 101, printed, complaint := "The program has stopped.\n" }
    | .idle => { code := 1, printed, complaint := "No command specified. Use --help for usage.\n" }
    | .failed f => { code := 1, printed, complaint := f.complaint }

end FleetCoordination.CommandLine
