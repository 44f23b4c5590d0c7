import FleetCoordination.Settings
/-!
# Manifests

A node's configuration with the heading that says what it is.
-/
namespace FleetCoordination

structure Manifest where
  apiVersion : String
  kind : String
  name : String
  version : Option String
  labels : Option (Table String String)
  settings : Settings

namespace Manifest

def apiVersionText : String := "constellation/v1"
def kindText : String := "CoordinationConfig"

/-- Names used where the host does not tell its own. -/
structure Host where
  node : String := "SAT-000"
  name : String := "constellation-node"

def Host.named (host : String) : Host := ⟨host, host⟩

/-- The manifest of a host without a configuration. -/
def standard (host : Host) : Manifest :=
  { apiVersion := apiVersionText, kind := kindText, name := host.name, version := some "1.0.0",
    labels := none, settings := { node := { id := host.node } } }

end Manifest

end FleetCoordination
