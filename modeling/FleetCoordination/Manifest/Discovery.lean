import FleetCoordination.Disk
import FleetCoordination.Manifest.Environment
import FleetCoordination.Manifest.Reader
import FleetCoordination.Yaml.Reader
/-!
# Finding manifests

Where a manifest is looked for when no path is given, and how it is loaded.
-/
namespace FleetCoordination.Manifest

def usualPath : String := "./constellation-config.yaml"
def systemPath : String := "/etc/constellation/config.yaml"

def homePath (home : String) : String :=
  (if home.endsWith "/" then home else home ++ "/") ++ ".constellation/config.yaml"

/-- The paths that are tried, in order. -/
def candidates (vars : Variables) : List String :=
  (vars.get? pathVariable).toList ++ [usualPath] ++ ((vars.get? "HOME").map homePath).toList ++ [systemPath]

/-- The first path at which something lies. -/
def discover? (d : Disk) (vars : Variables) : Option String := (candidates vars).find? d.exists?

def parse? (host : Host) (text : String) : Option Manifest := (Yaml.parse? text).bind (read? host)

/-- The manifest at a path; without a path the one that is discovered, or the standard one. -/
def load? (d : Disk) (vars : Variables) (host : Host) (path : Option String) : Option Manifest :=
  let manifest := match path.orElse fun _ => discover? d vars with
    | some path => (d.read? path).bind (parse? host)
    | none => some (standard host)
  manifest.map (overridden vars)

end FleetCoordination.Manifest
