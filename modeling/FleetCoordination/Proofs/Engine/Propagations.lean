import FleetCoordination.Proofs.Engine.Collecting
import FleetCoordination.Proofs.Engine.Submissions
/-!
# The course of propagations

A step puts a propagation under way, moves one on, ends one, or leaves them as they are. It
tells the caller of each one that it ends, and of no other.
-/
namespace FleetCoordination

/-- What a propagation keeps from its start to its end. -/
def Propagation.charter {κ : Type} (p : Propagation κ) : κ × ProposalId := (p.caller, p.id)

namespace Engine
variable {κ : Type}

/-- The propagation whose message the bus has not taken, and why. -/
def Input.undelivered? : Input κ → Option (ProposalId × TransportFault)
  | .posted (.propagation id) (.error f) => some (id, f)
  | _ => none

/-- What a step can do to the propagations, with what it tells of them. -/
inductive Passage (ps : List (Propagation κ)) : Option (κ × ProposalId) → Option (ProposalId × TransportFault) →
    List (κ × Except Fault PropagationReport) → List (Propagation κ) → Prop
  | idle (undelivered : Option (ProposalId × TransportFault)) : Passage ps none undelivered [] ps
  | refused (caller : κ) (id : ProposalId) (f : Fault) : Passage ps (some (caller, id)) none [(caller, .error f)] ps
  | opened (p : Propagation κ) (new : ∀ x ∈ ps, x.id ≠ p.id) : Passage ps (some p.charter) none [] (ps ++ [p])
  | moved (p p' : Propagation κ) (held : p ∈ ps) (charter : p'.charter = p.charter) :
      Passage ps none none [] (ps.map fun x => if x.id = p'.id then p' else x)
  | ended (p p' : Propagation κ) (held : p ∈ ps) (charter : p'.charter = p.charter) :
      Passage ps none none [(p'.caller, .ok p'.report)] (ps.filter fun x => x.id ≠ p'.id)
  | abandoned (p : Propagation κ) (f : TransportFault) (held : p ∈ ps) :
      Passage ps none (some (p.id, f)) [(p.caller, .error (.transport f))] (ps.filter fun x => x.id ≠ p.id)

/-! ## Steps -/

theorem charter_of_plan {p p' : Propagation κ} (plan : p'.plan = p.plan) : p'.charter = p.charter :=
  congrArg (fun x => (x.1, x.2.1)) plan

section Steps
variable {e : Engine κ} {c : Surroundings} {i : Input κ} {told : List (κ × Except Fault PropagationReport)}
  {k : Collection κ} {p q : Propagation κ}

theorem passage_close (held : q ∈ k.propagations) (charter : p.charter = q.charter) (now : Nat) :
    Passage k.propagations none none (told? now p) (k.close now p).propagations := by
  unfold told? Collection.close
  split
  · exact .ended q p held charter
  · exact .moved q p held charter

namespace Collection

theorem drop_set (k : Collection κ) (q : Propagation κ) : (k.set q).drop q.id = k.drop q.id := by
  have others (x : Propagation κ) (hx : x ∈ k.propagations.filter fun x => x.id ≠ q.id) :
      (if x.id = q.id then q else x) = x := if_neg (by simpa using (List.mem_filter.mp hx).2)
  have ids (x : Propagation κ) : (if x.id = q.id then q else x).id = x.id := by
    split
    · next mine => exact mine.symm
    · rfl
  simp only [drop, set, List.filter_map, Function.comp_def, ids]
  rw [List.map_congr_left others, List.map_id']

theorem set_set (k : Collection κ) (same : q.id = p.id) : (k.set q).set p = k.set p := by
  simp only [set, List.map_map]
  congr 1
  refine List.map_congr_left fun x _ => ?_
  by_cases mine : x.id = p.id <;> simp [same, mine]

/-- What is put in the place of a propagation is put out by what the step makes of it. -/
theorem close_set (k : Collection κ) (same : q.id = p.id) (now : Nat) : (k.set q).close now p = k.close now p := by
  unfold close
  split
  · rw [← same, drop_set]
    rfl
  · exact k.set_set same

end Collection

theorem plan_of_collected (moved : k.collected? i = some p) : ∃ q ∈ k.propagations, p.plan = q.plan := by
  unfold Collection.collected? at moved
  split at moved
  · obtain ⟨q, held, read⟩ := Option.bind_eq_some_iff.mp moved
    split at read
    · obtain rfl := Option.some.inj read
      exact ⟨q, List.mem_of_find?_eq_some held, q.plan_next.1⟩
    · cases read
  · obtain ⟨a, found, ends⟩ := Option.bind_eq_some_iff.mp moved
    obtain ⟨q, held, rfl⟩ := Option.map_eq_some_iff.mp ends
    exact ⟨q, List.mem_of_find?_eq_some held, rfl⟩
  · cases moved

theorem Gathering.passage (h : Gathering e c i told k) :
    Passage e.propagations i.propagator? i.undelivered? told k.propagations := by
  have new {id : ProposalId} (free : e.propagation? id = none) : ∀ x ∈ e.propagations, x.id ≠ id := by
    simpa [propagation?] using free
  cases h with
  | idle still unasked => exact unasked ▸ .idle _
  | refused caller id => exact .refused caller id _
  | offered a p found => exact .moved p _ (List.mem_of_find?_eq_some found) (charter_of_plan (p.plan_offer a).1)
  | opened caller id action params timeout free =>
    exact .opened (e.sending c caller id action params timeout) (new free)
  | abandoned p f found => exact .abandoned p _ (List.mem_of_find?_eq_some found)
  | handed p found => exact .moved p p.sent (List.mem_of_find?_eq_some found) rfl
  | begun p ok found =>
    let p' : Propagation κ := { p with progress := .reading ok }
    have replaced : (e.collection.set p.sent).close c.now p' = e.collection.close c.now p' :=
      e.collection.close_set (show p.sent.id = p'.id from rfl) c.now
    rw [replaced]
    exact passage_close (k := e.collection) (p := p') (List.mem_of_find?_eq_some found) rfl c.now
  | moved p moved =>
    obtain ⟨q, held, plan⟩ := plan_of_collected moved
    have unasked : i.propagator? = none := by cases i <;> first | rfl | cases moved
    have taken : i.undelivered? = none := by
      cases i with
      | posted => cases moved
      | _ => rfl
    rw [unasked, taken]
    exact passage_close (k := e.collection.release i.ticket?) held (charter_of_plan plan) c.now

theorem passage_step (once : (e.applications.map (·.ticket)).Nodup) (c : Surroundings) (i : Input κ) :
    Passage e.propagations i.propagator? i.undelivered? (deliveries (e.step c i).2) (e.step c i).1.propagations :=
  (gathering_step once c i).passage

end Steps

/-! ## Lists of propagations -/

section Lists
variable {ps ps' : List (Propagation κ)} {asked : Option (κ × ProposalId)}
  {undelivered : Option (ProposalId × TransportFault)} {told : List (κ × Except Fault PropagationReport)}

theorem id_of_charter {p p' : Propagation κ} (charter : p'.charter = p.charter) : p'.id = p.id :=
  congrArg Prod.snd charter

theorem ids_moved (ps : List (Propagation κ)) (p' : Propagation κ) :
    (ps.map fun x => if x.id = p'.id then p' else x).map (·.id) = ps.map (·.id) := by
  rw [List.map_map]
  refine List.map_congr_left fun x _ => ?_
  by_cases same : x.id = p'.id <;> simp [same]

theorem charters_moved {p p' : Propagation κ} (once : (ps.map (·.id)).Nodup) (held : p ∈ ps)
    (charter : p'.charter = p.charter) :
    (ps.map fun x => if x.id = p'.id then p' else x).map Propagation.charter = ps.map Propagation.charter := by
  rw [List.map_map]
  refine List.map_congr_left fun x hx => ?_
  by_cases same : x.id = p'.id
  · obtain rfl : x = p := List.inj_on_of_nodup_map once hx held (same.trans (id_of_charter charter))
    simp [same, charter]
  · simp [same]

theorem Passage.once (h : Passage ps asked undelivered told ps') (once : (ps.map (·.id)).Nodup) :
    (ps'.map (·.id)).Nodup := by
  cases h with
  | idle | refused => exact once
  | opened p new =>
    rw [List.map_append]
    refine once.append (List.nodup_singleton _) fun id old last => ?_
    obtain ⟨x, hx, rfl⟩ := List.mem_map.mp old
    exact new x hx (List.mem_singleton.mp last)
  | moved p p' => rwa [ids_moved]
  | ended | abandoned => exact once.sublist (List.filter_sublist.map _)

/-- Whoever asks for a propagation is told of it or has it under way. -/
theorem Passage.callers (h : Passage ps asked undelivered told ps') (once : (ps.map (·.id)).Nodup) :
    (told.map Prod.fst ++ ps'.map (·.caller)).Perm ((asked.map Prod.fst).toList ++ ps.map (·.caller)) := by
  cases h with
  | idle | refused => exact .refl _
  | opened p new =>
    have last : (ps.map (·.caller) ++ [p.caller]).Perm (p.caller :: ps.map (·.caller)) := List.perm_append_comm
    rw [List.map_append]
    exact last
  | moved p p' held charter =>
    have callers (qs : List (Propagation κ)) : qs.map (·.caller) = (qs.map Propagation.charter).map Prod.fst := by
      rw [List.map_map]
      rfl
    rw [callers, charters_moved once held charter, ← callers]
    exact .refl _
  | ended p p' held charter =>
    have split := (perm_filter_ne once held).map (·.caller)
    have caller : p'.caller = p.caller := congrArg Prod.fst charter
    rw [← id_of_charter charter, List.map_cons, ← caller] at split
    exact split.symm
  | abandoned p f held => exact ((perm_filter_ne once held).map (·.caller)).symm

end Lists

end Engine

end FleetCoordination
