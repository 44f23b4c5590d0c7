import FleetCoordination.Manifest
import FleetCoordination.Text.Blank
/-!
# Settings from the environment

Variables of the process that override single settings of a manifest.
-/
namespace FleetCoordination

/-- The variables of a process. -/
abbrev Variables := Table String String

namespace Manifest

/-- What a word says of a switch, in any case. -/
def switch? (word : String) : Option Bool :=
  let word := Text.lowerAscii word
  if word ∈ ["true", "1", "yes", "on"] then some true
  else if word ∈ ["false", "0", "no", "off"] then some false
  else none

/-- The setting of a switch; a variable that says nothing of it is ignored. -/
def switched (vars : Variables) (name : String) (setting : Bool) : Bool :=
  ((vars.get? name).bind switch?).getD setting

def nodeVariable : String := "CONSTELLATION_NODE_ID"
def pathVariable : String := "CONSTELLATION_CONFIG_PATH"

def overridden (vars : Variables) (m : Manifest) : Manifest :=
  let s := m.settings
  let id := Text.trim ((vars.get? nodeVariable).getD "")
  let f := s.features
  { m with settings := { s with
      node := if id.isEmpty then s.node else { s.node with id }
      features :=
        { swarmEnabled := switched vars "CONSTELLATION_SWARM_ENABLED" f.swarmEnabled
          forceLocal := switched vars "CONSTELLATION_FORCE_LOCAL" f.forceLocal
          timeoutFallback := switched vars "CONSTELLATION_TIMEOUT_FALLBACK" f.timeoutFallback } } }

end Manifest

end FleetCoordination
