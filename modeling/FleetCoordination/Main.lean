import FleetCoordination.CommandLine.Outcome
/-!
# The program

Reads what a command may need from the disk and the environment, lets it run, and prints
and writes what it comes to.
-/
namespace FleetCoordination.Program

def variableNames : List String :=
  ["HOME", "CONSTELLATION_CONFIG_PATH", "CONSTELLATION_LOG_FORMAT", "CONSTELLATION_NODE_ID",
    "CONSTELLATION_SWARM_ENABLED", "CONSTELLATION_FORCE_LOCAL", "CONSTELLATION_TIMEOUT_FALLBACK"]

def environment : IO Variables :=
  variableNames.foldlM (fun vars name => do
    match ← IO.getEnv name with
    | some value => pure (vars.insert name value)
    | none => pure vars) {}

/-- The paths a command may look at. -/
def paths (vars : Variables) (words : List String) : List String :=
  Manifest.candidates vars ++
    match CommandLine.parse vars words with
    | .ok i => i.config.toList ++
      match i.request with
      | .validate file => file.toList
      | .generate output _ _ => [output]
      | _ => []
    | .error _ => []

/-- What lies at a path, if anything does. -/
def entry? (path : String) : IO (Option Disk.Entry) := do
  try
    let text ← IO.FS.readFile path
    pure (some (.file text))
  catch
    | .noFileOrDirectory .. => pure none
    | _ => pure (some .other)

/-- Looks at a path. -/
def look (d : Disk) (path : String) : IO Disk := do
  match ← entry? path with
  | some e => pure { d with entries := d.entries.insert (d.locate path) e }
  | none => pure d

/-- Looks at a path and at the directory around it. -/
def lookAround (d : Disk) (path : String) : IO Disk := do
  look (← look d (d.parent path)) path

def host : IO Manifest.Host := do
  try
    let name := (← IO.FS.readFile "/etc/hostname").trimAscii.toString
    pure (if name.isEmpty then {} else Manifest.Host.named name)
  catch _ => pure {}

end FleetCoordination.Program

open FleetCoordination in
def main (words : List String) : IO UInt32 := do
  let vars ← Program.environment
  let directory := toString (← IO.currentDir)
  let disk ← (Program.paths vars words).foldlM Program.lookAround { directory }
  let r := CommandLine.report { disk, environment := vars, host := ← Program.host } words
  (← IO.getStdout).putStr r.printed
  (← IO.getStderr).putStr r.complaint
  match r.written with
  | some (path, text) => IO.FS.writeFile path text
  | none => pure ()
  pure r.code.toUInt32
