import FleetCoordination.Proofs.Record
import FleetCoordination.Proposal
/-!
# Reassignments in JSON

A reassignment of roles is read from JSON as it was written.
-/
namespace FleetCoordination
open Reading

theorem RoleChange.ofJson?_toJson (c : RoleChange) : ofJson? c.toJson = some c :=
  Gives.run (.bind (.required rfl rfl) <|
    .bind (.optional rfl (nullable_ofOption Role.ofJson?_toJson (fun _ => rfl) c.old)) <|
    .bind (.required rfl c.new.ofJson?_toJson) <| .pure _) rfl

theorem RoleReassignment.ofJson?_toJson (r : RoleReassignment) : ofJson? r.toJson = some r :=
  Gives.run (.bind (.required rfl (list?_map RoleChange.ofJson?_toJson r.changes)) <|
    .bind (.required rfl rfl) <| .pure _) rfl

end FleetCoordination
