import FleetCoordination.Proposal
/-!
# Errands

A call that sends a message and needs to know how that went gives the bus an errand, and goes on
when the bus has ended it. Until then other calls may run, and they meet the call as it waits.
-/
namespace FleetCoordination

/-- What a message was handed to the bus for. -/
inductive Errand
  | proposal (id : ProposalId)
  | propagation (id : ProposalId)
  deriving DecidableEq

/-- How far a call has come that waits for others. -/
inductive Progress
  /-- Its message is with the bus. -/
  | posting
  /-- Its own part is under way. -/
  | working
  /-- Its own part has ended, and it reads what others send. -/
  | reading (own : Bool)
  deriving DecidableEq

/-- How the call's own part has ended, once it has. -/
def Progress.own : Progress → Option Bool
  | reading own => some own
  | posting | working => none

end FleetCoordination
