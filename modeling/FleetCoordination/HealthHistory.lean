import FleetCoordination.Ring
import FleetCoordination.Timestamp
/-!
# Health histories

The recent risk samples of an agent together with its unhealthy streak and the time
since which it has been recovering.
-/
namespace FleetCoordination

inductive HealthClass
  | healthy
  | intermittent
  | degraded
  | critical
  deriving DecidableEq, Repr

def HealthClass.text : HealthClass → String
  | healthy => "HEALTHY"
  | intermittent => "INTERMITTENT"
  | degraded => "DEGRADED"
  | critical => "CRITICAL"

structure HealthThresholds where
  unhealthy : Float
  recovery : Float
  /-- Length of an unhealthy streak that counts as degraded. -/
  degraded : Nat

namespace HealthThresholds

def isUnhealthy (t : HealthThresholds) (risk : Float) : Bool := decide (t.unhealthy ≤ risk)
def isRecovering (t : HealthThresholds) (risk : Float) : Bool := decide (risk < t.recovery)

end HealthThresholds

namespace HealthHistory

/-- How many samples are kept. -/
def retained : Nat := 6

/-- Room for the samples before there are any. -/
def unsampled : Ring Float retained := .empty 0.0 (Nat.zero_lt_succ 5)

end HealthHistory

structure HealthHistory where
  thresholds : HealthThresholds
  recent : Ring Float HealthHistory.retained := HealthHistory.unsampled
  streak : Nat := 0
  streakStart : Option Timestamp := none
  recoveringSince : Option Timestamp := none

namespace HealthHistory

def record (h : HealthHistory) (risk : Float) (time : Timestamp) : HealthHistory :=
  let unhealthy := h.thresholds.isUnhealthy risk
  { h with
    recent := h.recent.push risk
    streak := if unhealthy then h.streak + 1 else 0
    streakStart := if unhealthy then (if h.streak = 0 then some time else h.streakStart) else none
    recoveringSince :=
      if h.thresholds.isRecovering risk then some (h.recoveringSince.getD time) else none }

def latest (h : HealthHistory) : Option Float := h.recent.last?

/-- The samples that are kept, oldest first. -/
def samples (h : HealthHistory) : List Float := h.recent.toList

/-- Nanoseconds since the recovery began. -/
def recoveredFor (h : HealthHistory) (now : Timestamp) : Option Int := h.recoveringSince.map now.since

def classify (h : HealthHistory) : HealthClass :=
  if h.thresholds.degraded < h.streak then .critical
  else if h.streak = h.thresholds.degraded then .degraded
  else if h.samples.any h.thresholds.isUnhealthy then .intermittent
  else .healthy

/-- What the history tells at a time; times and spans in milliseconds. -/
def toJson (h : HealthHistory) (now : Timestamp) : Json :=
  .object [("samples", .array (h.samples.map .float)), ("latest", Json.ofOption .float h.latest),
    ("consecutive", .ofNat h.streak), ("first_unhealthy_at", Json.ofOption (fun t => .int t.millis) h.streakStart),
    ("recovered_for", Json.ofOption (fun ns => .int (ns.tdiv 1000000)) (h.recoveredFor now)),
    ("class", .string h.classify.text)]

end HealthHistory

end FleetCoordination
