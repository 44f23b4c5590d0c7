import Mathlib.Data.List.Induction
import Mathlib.Data.String.Basic
import FleetCoordination.Network
/-!
# Runs of the network

What a sequence of operations leads to. Whether an agent is attached or isolated, and whether
a link is cut, is what the last operation on it has said.
-/
namespace FleetCoordination.Network

/-- The network after some operations, oldest first. -/
def run (capacity : Nat) (h : List Operation) : Network := h.foldl (fun n o => (n.operate o).1) (ofCapacity capacity)

/-- What the last operation that says anything of a matter says of it. -/
def lastly (tells : Operation → Option Bool) (h : List Operation) : Bool := (h.filterMap tells).getLast?.getD false

/-! ## Matters -/

def Operation.attaches (a : AgentId) : Operation → Option Bool
  | .attach b => if b = a then some true else none
  | .detach b => if b = a then some false else none
  | _ => none

def Operation.isolates (a : AgentId) : Operation → Option Bool
  | .isolate b => if b = a then some true else none
  | .rejoin b => if b = a then some false else none
  | .healAll => some false
  | _ => none

/-- A link has no direction. -/
def Operation.severs (a b : AgentId) : Operation → Option Bool
  | .partition x y => if x = a ∧ y = b ∨ x = b ∧ y = a then some true else none
  | .heal x y => if x = a ∧ y = b ∨ x = b ∧ y = a then some false else none
  | .healAll => some false
  | _ => none

def attached (h : List Operation) (a : AgentId) : Bool := lastly (Operation.attaches a) h

def secluded (h : List Operation) (a : AgentId) : Bool := lastly (Operation.isolates a) h

def cut (h : List Operation) (a b : AgentId) : Bool := lastly (Operation.severs a b) h

/-- Whether an envelope gets from an agent to another. -/
def linked (h : List Operation) (a b : AgentId) : Bool := !secluded h a && !secluded h b && !cut h a b

section Snoc
variable (capacity : Nat) (h : List Operation) (o : Operation) (tells : Operation → Option Bool) (a b : AgentId)

theorem run_snoc : run capacity (h ++ [o]) = ((run capacity h).operate o).1 := by simp [run]

theorem lastly_snoc : lastly tells (h ++ [o]) = (tells o).getD (lastly tells h) := by
  cases told : tells o <;> simp [lastly, told]

@[simp] theorem attached_snoc : attached (h ++ [o]) a = (o.attaches a).getD (attached h a) := lastly_snoc ..
@[simp] theorem secluded_snoc : secluded (h ++ [o]) a = (o.isolates a).getD (secluded h a) := lastly_snoc ..
@[simp] theorem cut_snoc : cut (h ++ [o]) a b = (o.severs a b).getD (cut h a b) := lastly_snoc ..

end Snoc

/-! ## Operations -/

section Operations
variable (n : Network)

theorem operate_publish (a : AgentId) (e : Envelope) (qos : Qos) :
    n.operate (.publish a e qos) =
      if a ∈ n.agents then (n.deliver { e with sender := a } qos, .accepted) else (n, .refused (.detached a)) := by
  by_cases present : a ∈ n.agents <;> simp [operate, publish, present]

theorem operate_subscribe (a : AgentId) (name : String) (topics : List String) :
    n.operate (.subscribe a name topics) =
      if a ∈ n.agents then
        ({ n with inboxes := (n.close name).inboxes ++ [{ name, agent := a, topics }] }, .accepted)
      else (n, .refused (.detached a)) := by
  by_cases present : a ∈ n.agents <;> simp [operate, subscribe, present]

/-- Whether an operation sets the loss of the network. -/
def Operation.loses : Operation → Bool
  | .loss _ => true
  | _ => false

theorem capacity_operate (o : Operation) : (n.operate o).1.capacity = n.capacity := by
  cases o <;> grind [operate, attach, detach, operate_subscribe, operate_publish, deliver, partition, heal, isolate,
    rejoin, healAll, setLoss, drain, close]

theorem certainLoss_operate {o : Operation} (keeps : o.loses = false) :
    (n.operate o).1.certainLoss = n.certainLoss := by
  cases o <;> grind [operate, attach, detach, operate_subscribe, operate_publish, deliver, partition, heal, isolate,
    rejoin, healAll, drain, close, Operation.loses]

theorem mem_agents_operate (o : Operation) (a : AgentId) :
    a ∈ (n.operate o).1.agents ↔ (o.attaches a).getD (decide (a ∈ n.agents)) = true := by
  cases o <;> grind [operate, attach, detach, operate_subscribe, operate_publish, deliver, partition, heal, isolate,
    rejoin, healAll, setLoss, drain, close, Operation.attaches]

theorem mem_isolated_operate (o : Operation) (a : AgentId) :
    a ∈ (n.operate o).1.isolated ↔ (o.isolates a).getD (decide (a ∈ n.isolated)) = true := by
  cases o <;> grind [operate, attach, detach, operate_subscribe, operate_publish, deliver, partition, heal, isolate,
    rejoin, healAll, setLoss, drain, close, Operation.isolates]

theorem pair_eq_iff {x y a b : AgentId} : pair x y = pair a b ↔ x = a ∧ y = b ∨ x = b ∧ y = a := by
  unfold pair
  split <;> split <;> grind

theorem mem_severed_operate (o : Operation) (a b : AgentId) :
    pair a b ∈ (n.operate o).1.severed ↔ (o.severs a b).getD (decide (pair a b ∈ n.severed)) = true := by
  cases o <;> grind [operate, attach, detach, operate_subscribe, operate_publish, deliver, partition, heal, isolate,
    rejoin, healAll, setLoss, drain, close, Operation.severs, pair_eq_iff]

end Operations

/-! ## Runs -/

section Runs
variable (capacity : Nat) (h : List Operation)

theorem capacity_run : (run capacity h).capacity = max 1 capacity := by
  induction h using List.reverseRecOn with
  | nil => exact Nat.max_comm ..
  | append_singleton h o ih => rw [run_snoc, capacity_operate, ih]

theorem certainLoss_run (lossless : ∀ o ∈ h, o.loses = false) : (run capacity h).certainLoss = false := by
  induction h using List.reverseRecOn with
  | nil => rfl
  | append_singleton h o ih =>
    rw [run_snoc, certainLoss_operate _ (lossless o (by simp))]
    exact ih fun o ho => lossless o (List.mem_append_left _ ho)

theorem mem_agents_run (a : AgentId) : a ∈ (run capacity h).agents ↔ attached h a = true := by
  induction h using List.reverseRecOn with
  | nil => simp [run, ofCapacity, attached, lastly]
  | append_singleton h o ih => simp [run_snoc, mem_agents_operate, ih]

theorem mem_isolated_run (a : AgentId) : a ∈ (run capacity h).isolated ↔ secluded h a = true := by
  induction h using List.reverseRecOn with
  | nil => simp [run, ofCapacity, secluded, lastly]
  | append_singleton h o ih => simp [run_snoc, mem_isolated_operate, ih]

theorem mem_severed_run (a b : AgentId) : pair a b ∈ (run capacity h).severed ↔ cut h a b = true := by
  induction h using List.reverseRecOn with
  | nil => simp [run, ofCapacity, cut, lastly]
  | append_singleton h o ih => simp [run_snoc, mem_severed_operate, ih]

theorem connected_run (a b : AgentId) : (run capacity h).connected a b = linked h a b := by
  simp [connected, linked, mem_isolated_run, mem_severed_run]

end Runs

end FleetCoordination.Network
