import FleetCoordination.Json
import FleetCoordination.Scalar
/-!
# Latency windows

The last 512 samples, oldest first, with the number of samples ever recorded and
percentiles by the nearest rank.
-/
namespace FleetCoordination

structure LatencyWindowOf (α : Type) where
  samples : List α := []
  count : Nat := 0

abbrev LatencyWindow := LatencyWindowOf Float

namespace LatencyWindowOf
variable {α : Type} [Scalar α]

def retained : Nat := 512

omit [Scalar α] in
/-- Adds a sample, in the place of the oldest one if the window is full. The count is a 64-bit word. -/
def record (w : LatencyWindowOf α) (sample : α) : LatencyWindowOf α :=
  let kept := if w.samples.length = retained then w.samples.tail else w.samples
  { samples := kept ++ [sample], count := Word.add 64 w.count 1 }

omit [Scalar α] in
def last (w : LatencyWindowOf α) : Option α := w.samples.getLast?

/-- Increasing in the total order of scalars. -/
def sorted (xs : List α) : List α := xs.mergeSort fun a b => (Scalar.order a b).isLE

/-- The number of the sample, counted from one, at or below which `percent` of `n`
samples lie. -/
def rank (percent : α) (n : Nat) : Nat :=
  min (max (Scalar.ceiling (percent / 100.0 * Scalar.ofNat n)) 1) n

def percentile (w : LatencyWindowOf α) (percent : α) : α :=
  ((sorted w.samples)[rank percent w.samples.length - 1]?).getD 0.0

end LatencyWindowOf

namespace LatencyWindow

/-- Milliseconds of a duration in nanoseconds. -/
def millisOfNanos (nanos : Nat) : Float :=
  (Float.ofNat (nanos / 1000000000) + Float.ofNat (nanos % 1000000000) / 1e9) * 1000.0

def recordNanos (w : LatencyWindow) (nanos : Nat) : LatencyWindow := w.record (millisOfNanos nanos)

def recordMillis (w : LatencyWindow) (ms : Nat) : LatencyWindow := w.recordNanos (ms * 1000000)

def toJson (w : LatencyWindow) : Json :=
  .object [("count", .ofNat w.count), ("last_ms", Json.ofOption .float w.last), ("p95_ms", .float (w.percentile 95.0))]

end LatencyWindow

end FleetCoordination
