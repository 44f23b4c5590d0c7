import FleetCoordination.Engine
/-!
# Evaluators

How an agent judges a proposal, and how long that takes.
-/
namespace FleetCoordination

inductive Evaluator
  | grantAll
  /-- Denies while the agent's own risk is critical, safe mode apart. -/
  | healthGated (critical : Float)
  /-- Comes to a fixed judgement after some milliseconds. -/
  | delayed (delay : Nat) (judgement : Judgement)

namespace Evaluator

/-- The action that is granted whatever the risk. -/
def exempt : String := "safe_mode"

def gate (critical risk : Float) : Judgement :=
  if critical ≤ risk then
    .deny s!"local risk {Decimal.fixed 2 risk} at or above critical {Decimal.fixed 2 critical}"
  else .grant

/-- The judgement on an action and the milliseconds it takes. -/
def judge (e : Evaluator) (w : World) (self : AgentId) (action : String) : Nat × Judgement :=
  match e with
  | grantAll => (0, .grant)
  | healthGated critical =>
    if action = exempt then (0, .grant)
    else (0, gate critical (((w.health? self).map Health.risk).getD 0.0))
  | delayed delay judgement => (delay, judgement)

/-- A judgement that takes longer than the limit is a denial at the limit. -/
def bounded (limit : Nat) (j : Nat × Judgement) : Nat × Judgement :=
  if j.1 ≤ limit then j else (limit, .deny "vote evaluation exceeded deadline")

end Evaluator

end FleetCoordination
