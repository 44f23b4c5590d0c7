import FleetCoordination.Proposal
import FleetCoordination.Word
/-!
# Executed proposals

A bounded memory of proposal ids: a set that tells which ids it holds, and a queue that tells
their age. A new id pushes out the oldest one once the window is full; an id that is still
remembered is refused and not refreshed.
-/
namespace FleetCoordination

structure ExecutedWindow where
  capacity : Nat
  /-- The ids as a set: their order means nothing. -/
  known : List ProposalId := []
  /-- The ids in a queue, oldest first. -/
  ids : List ProposalId := []
  nodup : ids.Nodup := by exact List.nodup_nil
  same : known.Perm ids := by exact .nil

namespace ExecutedWindow

/-- A window holds at least one id. -/
def ofCapacity (capacity : Nat) : ExecutedWindow := { capacity := max capacity 1 }

/-- A window so large that its memory cannot be laid out does not exist. -/
def ofCapacity? (capacity : Nat) : Option ExecutedWindow :=
  if Word.count 58 * 7 / 8 < capacity then none else some (ofCapacity capacity)

def contains (w : ExecutedWindow) (id : ProposalId) : Bool := decide (id ∈ w.known)

/-- Takes the oldest ids out of the queue, and out of the set, until the queue is no longer than
the capacity. -/
def evict (capacity : Nat) (known : List ProposalId) : List ProposalId → List ProposalId × List ProposalId
  | [] => (known, [])
  | id :: rest => if capacity < rest.length + 1 then evict capacity (known.erase id) rest else (known, id :: rest)

/-- The youngest ids stay in the queue. -/
theorem evict_snd (capacity : Nat) (known ids : List ProposalId) :
    (evict capacity known ids).2 = ids.drop (ids.length - capacity) := by
  induction ids generalizing known with
  | nil => simp [evict]
  | cons id rest ih =>
    unfold evict
    split
    · next long =>
      have drop : rest.length + 1 - capacity = rest.length - capacity + 1 := by omega
      rw [ih, List.length_cons, drop, List.drop_succ_cons]
    · next short =>
      have none_ : rest.length + 1 - capacity = 0 := by omega
      rw [List.length_cons, none_, List.drop_zero]

/-- What is taken out of the queue is taken out of the set. -/
theorem evict_perm {capacity : Nat} {known ids : List ProposalId} (same : known.Perm ids) :
    (evict capacity known ids).1.Perm (evict capacity known ids).2 := by
  induction ids generalizing known with
  | nil => exact same
  | cons id rest ih =>
    unfold evict
    split
    · exact ih (List.erase_cons_head (a := id) (l := rest) ▸ same.erase id)
    · exact same

theorem not_mem_of_new {w : ExecutedWindow} {id : ProposalId} (new : w.contains id = false) : id ∉ w.ids :=
  fun old => of_decide_eq_false new (w.same.mem_iff.mpr old)

/-- Enters a new id in the set and at the end of the queue. -/
def push (w : ExecutedWindow) (id : ProposalId) (new : w.contains id = false) : ExecutedWindow :=
  let kept := evict w.capacity (w.known.insert id) (w.ids ++ [id])
  { w with
    known := kept.1
    ids := kept.2
    nodup := by
      have fresh : (w.ids ++ [id]).Nodup := by
        refine List.nodup_append.mpr ⟨w.nodup, by simp, fun a old b last same => ?_⟩
        rw [List.mem_singleton.mp last] at same
        exact not_mem_of_new new (same ▸ old)
      rw [evict_snd]
      exact fresh.sublist (List.drop_sublist ..)
    same := by
      have entered : (w.known.insert id).Perm (w.ids ++ [id]) := by
        rw [List.insert_of_not_mem (of_decide_eq_false new)]
        exact (w.same.cons id).trans (List.perm_append_singleton ..).symm
      exact evict_perm entered }

/-- The window after an insertion and whether the id was new. -/
def insert (w : ExecutedWindow) (id : ProposalId) : ExecutedWindow × Bool :=
  if known : w.contains id then (w, false) else (w.push id (Bool.eq_false_iff.mpr known), true)

def size (w : ExecutedWindow) : Nat := w.known.length

@[simp] theorem capacity_push (w : ExecutedWindow) (id : ProposalId) (new : w.contains id = false) :
    (w.push id new).capacity = w.capacity := rfl

theorem insert_of_contains {w : ExecutedWindow} {id : ProposalId} (h : w.contains id = true) :
    w.insert id = (w, false) := by simp [insert, h]

end ExecutedWindow

end FleetCoordination
