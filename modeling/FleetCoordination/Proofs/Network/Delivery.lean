import Mathlib.Algebra.GroupWithZero.Nat
import Mathlib.Data.List.Forall2
import Mathlib.Data.List.Nodup
import FleetCoordination.Proofs.Network.Run
/-!
# Delivery of the network

A subscription is offered every envelope that is published while it listens and that gets
through to its agent. What its inbox has yielded, and then what is still in it, is what it was
offered when there was room.
-/
namespace FleetCoordination.Network

/-! ## Moments -/

/-- An operation, with those before it. -/
structure Moment where
  past : List Operation
  operation : Operation

def momentsAfter (past : List Operation) : List Operation → List Moment
  | [] => []
  | o :: rest => ⟨past, o⟩ :: momentsAfter (past ++ [o]) rest

/-- The moments of a run, oldest first. -/
def moments (h : List Operation) : List Moment := momentsAfter [] h

theorem momentsAfter_snoc (past h : List Operation) (o : Operation) :
    momentsAfter past (h ++ [o]) = momentsAfter past h ++ [⟨past ++ h, o⟩] := by
  induction h generalizing past with
  | nil => simp [momentsAfter]
  | cons x h ih => simp [momentsAfter, ih]

@[simp] theorem moments_snoc (h : List Operation) (o : Operation) : moments (h ++ [o]) = moments h ++ [⟨h, o⟩] :=
  momentsAfter_snoc [] h o

@[simp] theorem length_moments (h : List Operation) : (moments h).length = h.length := by
  induction h using List.reverseRecOn with
  | nil => rfl
  | append_singleton h o ih => simp [ih]

theorem length_past_of_mem {h : List Operation} {m : Moment} (hm : m ∈ moments h) : m.past.length < h.length := by
  induction h using List.reverseRecOn with
  | nil => cases hm
  | append_singleton h o ih =>
    rw [moments_snoc] at hm
    rcases List.mem_append.mp hm with earlier | last
    · have := ih earlier
      grind
    · grind

/-! ## Subscriptions -/

/-- An inbox that was opened, with the operations before that. -/
structure Subscription where
  past : List Operation
  agent : AgentId
  inbox : String
  topics : List String

namespace Moment

/-- The subscription that is made at a moment: only an attached agent may subscribe. -/
def subscription? (m : Moment) : Option Subscription :=
  match m.operation with
  | .subscribe agent inbox topics =>
    if attached m.past agent then some { past := m.past, agent, inbox, topics } else none
  | _ => none

/-- Whether the inbox of a name is given up at a moment: it is closed, or replaced. -/
def givesUp (m : Moment) (inbox : String) : Bool :=
  match m.operation with
  | .close name => inbox = name
  | .subscribe agent name _ => inbox = name && attached m.past agent
  | _ => false

def detaches (m : Moment) (agent : AgentId) : Bool :=
  match m.operation with
  | .detach a => agent = a
  | _ => false

/-- What an inbox yields at a moment. -/
def received (capacity : Nat) (m : Moment) (inbox : String) : List Envelope :=
  match m.operation, ((run capacity m.past).operate m.operation).2 with
  | .drain name, .received envelopes _ => if name = inbox then envelopes else []
  | _, _ => []

end Moment

def subscriptions (h : List Operation) : List Subscription := (moments h).filterMap Moment.subscription?

/-- Number of envelopes that wait in an inbox. -/
def queued (capacity : Nat) (h : List Operation) (inbox : String) : Nat :=
  ((run capacity h).inbox? inbox).elim 0 fun i => i.queue.length

namespace Subscription
variable (capacity : Nat) (s : Subscription) (h : List Operation)

/-- The moments after it was made. -/
def since : List Moment := (moments h).drop (s.past.length + 1)

/-- Whether its inbox is read still. -/
def held : Bool := (s.since h).all fun m => !m.givesUp s.inbox

/-- Whether it is open on both sides. -/
def listens : Bool := s.held h && (s.since h).all fun m => !m.detaches s.agent

/-- The envelope that is queued in it at a moment: of an attached agent, on a topic of its own,
addressed to its agent, over a link that holds, and with room for it. -/
def arrival? (m : Moment) : Option Envelope :=
  match m.operation with
  | .publish agent e _ =>
    let e := { e with sender := agent }
    if attached m.past agent ∧ s.listens m.past ∧ e.topic ∈ s.topics ∧ e.isFor s.agent ∧ linked m.past agent s.agent ∧
        queued capacity m.past s.inbox < max 1 capacity then some e else none
  | _ => none

/-- The envelopes ever queued in it, in their order. -/
def arrivals : List Envelope := (s.since h).filterMap (s.arrival? capacity)

/-- All that it has yielded. -/
def received : List Envelope := (s.since h).flatMap (·.received capacity s.inbox)

end Subscription

/-! ## One more operation -/

section Snoc
variable {capacity : Nat} {s : Subscription} {h : List Operation} {o : Operation}

theorem subscriptions_snoc : subscriptions (h ++ [o]) = subscriptions h ++ (Moment.mk h o).subscription?.toList := by
  cases made : (Moment.mk h o).subscription? <;> simp [subscriptions, made]

theorem length_past_of_mem_subscriptions (hs : s ∈ subscriptions h) : s.past.length < h.length := by
  obtain ⟨m, hm, made⟩ := List.mem_filterMap.mp hs
  have earlier := length_past_of_mem hm
  unfold Moment.subscription? at made
  grind

theorem since_of_new (new : s.past = h) : s.since (h ++ [o]) = [] := by
  simp [Subscription.since, new]

section Old
variable (old : s.past.length < h.length)
include old

theorem since_snoc : s.since (h ++ [o]) = s.since h ++ [⟨h, o⟩] := by
  rw [Subscription.since, moments_snoc, List.drop_append_of_le_length (by simpa using Nat.succ_le_of_lt old)]
  rfl

theorem held_snoc : s.held (h ++ [o]) = (s.held h && !(Moment.mk h o).givesUp s.inbox) := by
  simp [Subscription.held, since_snoc old]

theorem listens_snoc : s.listens (h ++ [o]) =
    (s.listens h && !(Moment.mk h o).givesUp s.inbox && !(Moment.mk h o).detaches s.agent) := by
  simp only [Subscription.listens, held_snoc old, since_snoc old, List.all_append, List.all_cons, List.all_nil]
  grind

theorem arrivals_snoc :
    s.arrivals capacity (h ++ [o]) = s.arrivals capacity h ++ (s.arrival? capacity ⟨h, o⟩).toList := by
  cases arrived : s.arrival? capacity ⟨h, o⟩ <;> simp [Subscription.arrivals, since_snoc old, arrived]

theorem received_snoc :
    s.received capacity (h ++ [o]) = s.received capacity h ++ (Moment.mk h o).received capacity s.inbox := by
  simp [Subscription.received, since_snoc old]

end Old
end Snoc

/-! ## Operations on inboxes -/

namespace Operation
variable (n : Network) (i : Inbox)

/-- The envelope that an operation puts into an inbox. -/
def brings : Operation → Option Envelope
  | .publish agent e qos =>
    let e := { e with sender := agent }
    if agent ∈ n.agents ∧ Inbox.takes n i e qos ∧ i.queue.length < n.capacity then some e else none
  | _ => none

/-- Whether an inbox outlasts an operation. -/
def spares : Operation → Bool
  | .close name => i.name ≠ name
  | .subscribe agent name _ => !(decide (agent ∈ n.agents) && i.name = name)
  | _ => true

/-- An inbox after an operation that it outlasts. -/
def leaves : Operation → Inbox
  | .detach agent => if i.agent = agent then { i with attached := false } else i
  | .drain name => if i.name = name then { i with queue := [] } else i
  | o => { i with queue := i.queue ++ (o.brings n i).toList }

/-- The inbox that an operation opens. -/
def opens : Operation → List Inbox
  | .subscribe agent name topics => if agent ∈ n.agents then [{ name, agent, topics }] else []
  | _ => []

end Operation

section Operations
variable (n : Network)

theorem attach_keeps (a : AgentId) : (n.attach a).inboxes = n.inboxes ∧ (n.attach a).delivered = n.delivered := by
  unfold attach
  split <;> exact ⟨rfl, rfl⟩

theorem partition_keeps (a b : AgentId) :
    (n.partition a b).inboxes = n.inboxes ∧ (n.partition a b).delivered = n.delivered := by
  unfold partition
  split <;> exact ⟨rfl, rfl⟩

theorem isolate_keeps (a : AgentId) : (n.isolate a).inboxes = n.inboxes ∧ (n.isolate a).delivered = n.delivered := by
  unfold isolate
  split <;> exact ⟨rfl, rfl⟩

theorem leaves_keeps (i : Inbox) (o : Operation) :
    (o.leaves n i).name = i.name ∧ (o.leaves n i).agent = i.agent ∧ (o.leaves n i).topics = i.topics := by
  unfold Operation.leaves
  split <;> (try split) <;> exact ⟨rfl, rfl, rfl⟩

theorem attached_leaves (h : List Operation) (i : Inbox) (o : Operation) :
    (o.leaves n i).attached = (i.attached && !(Moment.mk h o).detaches i.agent) := by
  cases o with
  | detach agent =>
    by_cases mine : i.agent = agent <;> simp [Operation.leaves, Moment.detaches, mine]
  | drain name =>
    simp only [Operation.leaves, Moment.detaches]
    split <;> simp
  | _ => simp [Operation.leaves, Moment.detaches]

theorem inboxes_operate (o : Operation) : (n.operate o).1.inboxes =
    (n.inboxes.filter (o.spares n ·)).map (o.leaves n ·) ++ o.opens n := by
  cases o with
  | subscribe agent name topics =>
    rw [operate_subscribe]
    by_cases present : agent ∈ n.agents <;>
      simp [present, Operation.spares, Operation.leaves, Operation.brings, Operation.opens, close]
  | publish agent e qos =>
    rw [operate_publish]
    by_cases present : agent ∈ n.agents
    · simp only [present, if_true, deliver, Operation.spares, Operation.leaves, Operation.brings, Operation.opens,
        List.filter_true, List.append_nil, true_and]
      refine List.map_congr_left fun i _ => ?_
      simp only [Bool.and_eq_true, decide_eq_true_eq]
      split <;> simp
    · simp [present, Operation.spares, Operation.leaves, Operation.brings, Operation.opens]
  | drain name =>
    have left : (n.drain name).inboxes = (n.inboxes.filter (Operation.spares n · (.drain name))).map
        (Operation.leaves n · (.drain name)) ++ Operation.opens n (.drain name) := by
      simp [drain, Operation.spares, Operation.leaves, Operation.opens]
    cases found : n.inbox? name with
    | some i => simpa only [operate, found] using left
    | none =>
      have absent : ∀ i ∈ n.inboxes, i.name ≠ name := by simpa [inbox?] using found
      have same : (n.drain name).inboxes = n.inboxes :=
        (List.map_congr_left fun i hi => if_neg (absent i hi)).trans (List.map_id' _)
      simpa only [operate, found, same] using left
  | detach agent => simp [operate, detach, Operation.spares, Operation.leaves, Operation.opens]
  | close name => simp [operate, close, Operation.spares, Operation.leaves, Operation.brings, Operation.opens]
  | attach | partition | isolate =>
    simp [operate, attach_keeps, partition_keeps, isolate_keeps, Operation.spares, Operation.leaves, Operation.brings,
      Operation.opens]
  | heal | rejoin | healAll | loss =>
    simp [operate, heal, rejoin, healAll, setLoss, Operation.spares, Operation.leaves, Operation.brings,
      Operation.opens]

theorem delivered_deliver (e : Envelope) (qos : Qos) : (n.deliver e qos).delivered =
    n.delivered + n.inboxes.countP fun i => Inbox.takes n i e qos && decide (i.queue.length < n.capacity) := by
  let offered := n.inboxes.filter (Inbox.takes n · e qos)
  have parts := List.length_eq_countP_add_countP (fun i => decide (n.capacity ≤ i.queue.length)) (l := offered)
  have room : offered.countP (fun i => ¬decide (n.capacity ≤ i.queue.length) = true) =
      n.inboxes.countP fun i => Inbox.takes n i e qos && decide (i.queue.length < n.capacity) := by
    rw [List.countP_filter]
    exact List.countP_congr fun i _ => by simp [and_comm]
  rw [room] at parts
  change n.delivered + (offered.length - offered.countP fun i => decide (n.capacity ≤ i.queue.length)) = _
  omega

theorem delivered_operate (o : Operation) : (n.operate o).1.delivered =
    n.delivered + n.inboxes.countP fun i => (o.brings n i).isSome := by
  cases o with
  | subscribe agent name topics =>
    rw [operate_subscribe]
    by_cases present : agent ∈ n.agents <;> simp [present, Operation.brings]
  | publish agent e qos =>
    rw [operate_publish]
    by_cases present : agent ∈ n.agents
    · simp only [present, if_true, delivered_deliver, Operation.brings, true_and]
      refine congrArg _ (List.countP_congr fun i _ => ?_)
      simp
    · simp [present, Operation.brings]
  | drain name =>
    unfold operate
    dsimp only
    split <;> simp [drain, Operation.brings]
  | attach | partition | isolate => simp [operate, attach_keeps, partition_keeps, isolate_keeps, Operation.brings]
  | detach | close | heal | rejoin | healAll | loss =>
    simp [operate, detach, close, heal, rejoin, healAll, setLoss, Operation.brings]

end Operations

/-! ## Inboxes and their subscriptions -/

/-- What an inbox is by the subscription that it belongs to: what it has yielded, and then what
is in it, is all that has come. -/
structure Serves (capacity : Nat) (h : List Operation) (s : Subscription) (i : Inbox) : Prop where
  name : i.name = s.inbox
  agent : i.agent = s.agent
  topics : i.topics = s.topics
  live : i.attached = s.listens h
  contents : s.received capacity h ++ i.queue = s.arrivals capacity h

section Serves
variable {capacity : Nat} {h : List Operation} {s : Subscription} {i : Inbox} {o : Operation}

theorem inbox?_of_mem {n : Network} (once : (n.inboxes.map (·.name)).Nodup) (hi : i ∈ n.inboxes) :
    n.inbox? i.name = some i := by
  cases found : n.inbox? i.name with
  | none => exact (List.find?_eq_none.mp found i hi (decide_eq_true rfl)).elim
  | some i' =>
    have same : i'.name = i.name := by simpa using List.find?_some found
    rw [List.inj_on_of_nodup_map once (List.mem_of_find?_eq_some found) hi same]

theorem Serves.spares_eq (serves : Serves capacity h s i) :
    o.spares (run capacity h) i = !(Moment.mk h o).givesUp s.inbox := by
  cases o with
  | subscribe agent name topics =>
    have present : decide (agent ∈ (run capacity h).agents) = attached h agent := by simp [mem_agents_run]
    simp only [Operation.spares, Moment.givesUp, serves.name, present, Bool.and_comm]
  | close name => simp [Operation.spares, Moment.givesUp, serves.name]
  | _ => rfl

section Held
variable (serves : Serves capacity h s i) (once : ((run capacity h).inboxes.map (·.name)).Nodup)
  (hi : i ∈ (run capacity h).inboxes)
include serves once hi

theorem Serves.brings_eq (lossless : (run capacity h).certainLoss = false) :
    o.brings (run capacity h) i = s.arrival? capacity ⟨h, o⟩ := by
  have waiting : queued capacity h s.inbox = i.queue.length := by
    rw [queued, ← serves.name, inbox?_of_mem once hi]
    rfl
  cases o with
  | publish agent e qos =>
    simp only [Operation.brings, Subscription.arrival?, mem_agents_run, capacity_run, waiting, Inbox.takes, reaches,
      lossless, connected_run, serves.live, serves.agent, serves.topics, Bool.and_eq_true, Bool.false_and,
      Bool.not_false, Bool.and_true, decide_eq_true_eq]
    congr 1
    simp only [eq_iff_iff]
    tauto
  | _ => rfl

/-- An inbox that is emptied yields all that is in it. -/
theorem Serves.received_eq : (Moment.mk h o).received capacity s.inbox ++ (o.leaves (run capacity h) i).queue =
    i.queue ++ (o.brings (run capacity h) i).toList := by
  cases o with
  | drain name =>
    by_cases mine : name = s.inbox
    · subst mine
      have found : (run capacity h).inbox? s.inbox = some i := by rw [← serves.name, inbox?_of_mem once hi]
      simp [Moment.received, operate, found, Operation.leaves, Operation.brings, serves.name]
    · have other : i.name ≠ name := fun same => mine (same.symm.trans serves.name)
      simp only [Moment.received, operate]
      split <;> simp_all [Operation.leaves, Operation.brings]
  | detach agent =>
    simp only [Moment.received, Operation.leaves, Operation.brings]
    split <;> simp
  | _ => simp [Moment.received, Operation.leaves]

theorem Serves.step (old : s.past.length < h.length) (lossless : (run capacity h).certainLoss = false)
    (spared : o.spares (run capacity h) i = true) : Serves capacity (h ++ [o]) s (o.leaves (run capacity h) i) := by
  obtain ⟨name, agent, topics⟩ := leaves_keeps (run capacity h) i o
  have kept : (Moment.mk h o).givesUp s.inbox = false := by simpa [serves.spares_eq] using spared
  refine ⟨name.trans serves.name, agent.trans serves.agent, topics.trans serves.topics, ?_, ?_⟩
  · rw [listens_snoc old, kept, attached_leaves _ h, serves.live, serves.agent, Bool.not_false, Bool.and_true]
  · rw [received_snoc old, arrivals_snoc old, List.append_assoc, serves.received_eq once hi, ← List.append_assoc,
      serves.contents, serves.brings_eq once hi lossless]

end Held
end Serves

/-! ## Runs -/

/-- What the inboxes of a run are: one for each subscription that is held. -/
structure Kept (capacity : Nat) (h : List Operation) : Prop where
  served : List.Forall₂ (Serves capacity h) ((subscriptions h).filter (·.held h)) (run capacity h).inboxes
  names : ((run capacity h).inboxes.map (·.name)).Nodup
  delivered : (run capacity h).delivered = ((subscriptions h).map fun s => (s.arrivals capacity h).length).sum

theorem forall₂_filter_map {α β : Type} {R S : α → β → Prop} {p : α → Bool} {q : β → Bool} {g : β → β} {xs : List α}
    {ys : List β} (h : List.Forall₂ R xs ys) (agree : ∀ x ∈ xs, ∀ y ∈ ys, R x y → q y = p x)
    (keep : ∀ x ∈ xs, ∀ y ∈ ys, R x y → q y = true → S x (g y)) :
    List.Forall₂ S (xs.filter p) ((ys.filter q).map g) := by
  induction h with
  | nil => exact .nil
  | @cons x y xs ys related _ ih =>
    have rest := ih (fun x hx y hy => agree x (.tail _ hx) y (.tail _ hy))
      (fun x hx y hy => keep x (.tail _ hx) y (.tail _ hy))
    have same := agree x (.head _) y (.head _) related
    cases passes : q y with
    | true =>
      rw [List.filter_cons_of_pos (same ▸ passes), List.filter_cons_of_pos passes]
      exact .cons (keep x (.head _) y (.head _) related passes) rest
    | false =>
      rw [List.filter_cons_of_neg (by simp [← same, passes]), List.filter_cons_of_neg (by simp [passes])]
      exact rest

section Kept
variable {capacity : Nat} {h : List Operation} {s : Subscription} {i : Inbox} {o : Operation}

theorem held_of_new (new : s.past = h) : s.held (h ++ [o]) = true := by
  simp [Subscription.held, since_of_new new]

/-- An inbox that is opened serves its subscription. -/
theorem serves_opens : List.Forall₂ (Serves capacity (h ++ [o]))
    ((Moment.mk h o).subscription?.toList.filter (·.held (h ++ [o]))) (o.opens (run capacity h)) := by
  cases o with
  | subscribe agent name topics =>
    by_cases present : attached h agent = true
    · let s : Subscription := { past := h, agent, inbox := name, topics }
      have empty : s.since (h ++ [.subscribe agent name topics]) = [] := since_of_new rfl
      have fresh : Serves capacity (h ++ [.subscribe agent name topics]) s { name, agent, topics } :=
        ⟨rfl, rfl, rfl, by simp [Subscription.listens, Subscription.held, empty],
          by simp [Subscription.received, Subscription.arrivals, empty]⟩
      have held : s.held (h ++ [.subscribe agent name topics]) = true := held_of_new rfl
      simp only [Moment.subscription?, present, if_true, Option.toList_some, Operation.opens, mem_agents_run]
      rw [List.filter_cons_of_pos (by exact held)]
      exact .cons fresh .nil
    · simp [Moment.subscription?, Operation.opens, mem_agents_run, present]
  | _ => exact .nil

theorem nodup_names_operate {n : Network} (once : (n.inboxes.map (·.name)).Nodup) :
    ((n.operate o).1.inboxes.map (·.name)).Nodup := by
  have names : ((n.inboxes.filter (o.spares n ·)).map (o.leaves n ·)).map (·.name) =
      (n.inboxes.filter (o.spares n ·)).map (·.name) := by
    rw [List.map_map]
    exact List.map_congr_left fun i _ => (leaves_keeps n i o).1
  rw [inboxes_operate, List.map_append, names]
  have left : ((n.inboxes.filter (o.spares n ·)).map (·.name)).Nodup := once.sublist (List.filter_sublist.map _)
  cases o with
  | subscribe agent name topics =>
    by_cases present : agent ∈ n.agents
    · have new : name ∉ (n.inboxes.filter ((Operation.subscribe agent name topics).spares n ·)).map (·.name) := by
        simp [Operation.spares, present]
      simp only [Operation.opens, present, if_true, List.map_cons, List.map_nil]
      exact left.append (List.nodup_singleton name) (List.disjoint_singleton.mpr new)
    · simpa [Operation.opens, present] using left
  | _ => simpa [Operation.opens] using left

/-- Only a subscription that is held is brought anything. -/
theorem held_of_arrival (arrived : (s.arrival? capacity ⟨h, o⟩).isSome = true) : s.held h = true := by
  cases o with
  | publish agent e qos =>
    by_contra lapsed
    have deaf : s.listens h = false := by simp [Subscription.listens, lapsed]
    simp [Subscription.arrival?, deaf] at arrived
  | _ => cases arrived

theorem sum_length_append {α β : Type} (xs : List α) (f : α → List β) (g : α → Option β) :
    (xs.map fun x => (f x ++ (g x).toList).length).sum =
      (xs.map fun x => (f x).length).sum + xs.countP fun x => (g x).isSome := by
  induction xs with
  | nil => rfl
  | cons x xs ih =>
    simp only [List.length_append] at ih
    simp only [List.length_append, List.map_cons, List.sum_cons, List.countP_cons, ih]
    cases g x <;> simp <;> omega

/-- What an operation brings is counted once for each subscription that it comes to. -/
theorem sum_arrivals_snoc (kept : Kept capacity h) (lossless : (run capacity h).certainLoss = false) :
    ((subscriptions (h ++ [o])).map fun s => (s.arrivals capacity (h ++ [o])).length).sum =
      ((subscriptions h).map fun s => (s.arrivals capacity h).length).sum +
        (run capacity h).inboxes.countP fun i => (o.brings (run capacity h) i).isSome := by
  have new : ((Moment.mk h o).subscription?.toList.map fun s => (s.arrivals capacity (h ++ [o])).length).sum = 0 := by
    cases made : (Moment.mk h o).subscription? with
    | none => rfl
    | some s =>
      have past : s.past = h := by
        unfold Moment.subscription? at made
        grind
      simp [Subscription.arrivals, since_of_new past]
  have old : ((subscriptions h).map fun s => (s.arrivals capacity (h ++ [o])).length) =
      (subscriptions h).map fun s => (s.arrivals capacity h ++ (s.arrival? capacity ⟨h, o⟩).toList).length :=
    List.map_congr_left fun s hs => by rw [arrivals_snoc (length_past_of_mem_subscriptions hs)]
  have held : (subscriptions h).countP (fun s => (s.arrival? capacity ⟨h, o⟩).isSome) =
      ((subscriptions h).filter (·.held h)).countP fun s => (s.arrival? capacity ⟨h, o⟩).isSome := by
    rw [List.countP_filter]
    exact List.countP_congr fun s _ => by simpa using held_of_arrival
  have brought := (forall₂_filter_map (S := fun _ _ => True) (g := id) kept.served
    (p := fun s => (s.arrival? capacity ⟨h, o⟩).isSome) (q := fun i => (o.brings (run capacity h) i).isSome)
    (fun s _ i hi serves => by rw [serves.brings_eq kept.names hi lossless]) fun _ _ _ _ _ _ => trivial).length_eq
  rw [List.length_map, ← List.countP_eq_length_filter, ← List.countP_eq_length_filter] at brought
  rw [subscriptions_snoc, List.map_append, List.sum_append, new, old, sum_length_append, held, brought, Nat.add_zero]

theorem Kept.step (kept : Kept capacity h) (lossless : (run capacity h).certainLoss = false) :
    Kept capacity (h ++ [o]) := by
  refine ⟨?_, ?_, ?_⟩
  · have left : (subscriptions h).filter (·.held (h ++ [o])) =
        ((subscriptions h).filter (·.held h)).filter fun s => !(Moment.mk h o).givesUp s.inbox := by
      rw [List.filter_filter]
      refine List.filter_congr fun s hs => ?_
      rw [held_snoc (length_past_of_mem_subscriptions hs), Bool.and_comm]
    rw [subscriptions_snoc, List.filter_append, run_snoc, inboxes_operate, left]
    refine List.rel_append (forall₂_filter_map kept.served (fun s _ i _ serves => serves.spares_eq) ?_) serves_opens
    exact fun s hs i hi serves spared => serves.step kept.names hi
      (length_past_of_mem_subscriptions (List.mem_filter.mp hs).1) lossless spared
  · rw [run_snoc]
    exact nodup_names_operate kept.names
  · rw [run_snoc, delivered_operate, kept.delivered, sum_arrivals_snoc kept lossless]

theorem kept_run (capacity : Nat) {h : List Operation} (lossless : ∀ o ∈ h, o.loses = false) : Kept capacity h := by
  induction h using List.reverseRecOn with
  | nil => exact ⟨.nil, .nil, rfl⟩
  | append_singleton h o ih =>
    have past : ∀ o ∈ h, o.loses = false := fun o ho => lossless o (List.mem_append_left _ ho)
    exact (ih past).step (certainLoss_run capacity h past)

end Kept

/-! ## Deliveries -/

theorem split_of_mem_moments {h : List Operation} {m : Moment} (hm : m ∈ moments h) :
    ∃ rest, h = m.past ++ m.operation :: rest := by
  induction h using List.reverseRecOn with
  | nil => cases hm
  | append_singleton h o ih =>
    rw [moments_snoc] at hm
    rcases List.mem_append.mp hm with earlier | last
    · obtain ⟨rest, split⟩ := ih earlier
      exact ⟨rest ++ [o], by rw [split]; simp⟩
    · rw [List.mem_singleton.mp last]
      exact ⟨[], rfl⟩

/-- The agent through whose handle an operation goes. -/
def Operation.handle? : Operation → Option AgentId
  | .publish agent _ _ => some agent
  | .subscribe agent _ _ => some agent
  | _ => none

/-- What the inboxes and the count of a run come to. -/
structure Delivers (capacity : Nat) (h : List Operation) : Prop where
  /-- An inbox that is held has yielded all that has come to it, but for what is in it still. -/
  yields : ∀ s ∈ subscriptions h, s.held h = true →
    ∃ i, (run capacity h).inbox? s.inbox = some i ∧ s.received capacity h ++ i.queue = s.arrivals capacity h
  /-- There are no other inboxes. -/
  others : ∀ name, (∀ s ∈ subscriptions h, s.held h = true → s.inbox ≠ name) → (run capacity h).inbox? name = none
  /-- What an inbox yields was published by its sender, and is otherwise as it was published. -/
  senders : ∀ m ∈ moments h, ∀ name, ∀ e ∈ m.received capacity name, ∃ m' ∈ moments m.past, ∃ published qos,
    m'.operation = .publish e.sender published qos ∧ e = { published with sender := e.sender }
  /-- The count is of all envelopes ever queued. -/
  delivered : (run capacity h).delivered = ((subscriptions h).map fun s => (s.arrivals capacity h).length).sum
  /-- The handle of a detached agent does nothing. -/
  refused : ∀ m ∈ moments h, ∀ agent, m.operation.handle? = some agent → attached m.past agent = false →
    (run capacity m.past).operate m.operation = (run capacity m.past, .refused (.detached agent))

theorem exists_of_forall₂ {α β : Type} {R : α → β → Prop} {xs : List α} {ys : List β} (h : List.Forall₂ R xs ys) :
    (∀ x ∈ xs, ∃ y ∈ ys, R x y) ∧ ∀ y ∈ ys, ∃ x ∈ xs, R x y := by
  induction h with
  | nil => simp
  | cons related _ ih =>
    simp only [List.mem_cons, forall_eq_or_imp, exists_eq_or_imp]
    exact ⟨⟨.inl related, fun x hx => .inr (ih.1 x hx)⟩, .inl related, fun y hy => .inr (ih.2 y hy)⟩

section Delivers
variable {capacity : Nat} {h : List Operation}

theorem publish_of_arrival {s : Subscription} {m : Moment} {e : Envelope} (arrived : s.arrival? capacity m = some e) :
    ∃ published qos, m.operation = .publish e.sender published qos ∧ e = { published with sender := e.sender } := by
  unfold Subscription.arrival? at arrived
  split at arrived
  · next agent published qos same =>
    dsimp only at arrived
    split at arrived
    · cases arrived
      exact ⟨published, qos, same, rfl⟩
    · cases arrived
  · cases arrived

theorem mem_queue_of_received {m : Moment} {name : String} {e : Envelope} (he : e ∈ m.received capacity name) :
    ∃ i ∈ (run capacity m.past).inboxes, e ∈ i.queue := by
  unfold Moment.received at he
  split at he
  · next drained envelopes _ named reply =>
    rw [named] at reply
    cases found : (run capacity m.past).inbox? drained with
    | some i =>
      simp only [operate, found, Reply.received.injEq] at reply
      split at he
      · exact ⟨i, List.mem_of_find?_eq_some found, reply.1 ▸ he⟩
      · cases he
    | none => simp [operate, found] at reply
  · cases he

/-- What is in an inbox was published, by its sender. -/
theorem Kept.published (kept : Kept capacity h) {i : Inbox} (hi : i ∈ (run capacity h).inboxes) {e : Envelope}
    (he : e ∈ i.queue) : ∃ m ∈ moments h, ∃ published qos,
      m.operation = .publish e.sender published qos ∧ e = { published with sender := e.sender } := by
  obtain ⟨s, -, serves⟩ := (exists_of_forall₂ kept.served).2 i hi
  have came : e ∈ s.arrivals capacity h := serves.contents ▸ List.mem_append_right _ he
  obtain ⟨m, hm, arrived⟩ := List.mem_filterMap.mp came
  exact ⟨m, List.mem_of_mem_drop hm, publish_of_arrival arrived⟩

/-- Whatever happens on a network that loses nothing: each inbox yields, in their order, the
envelopes that were published while it was open and that got through to it when it had room. -/
theorem bus_delivery (capacity : Nat) (lossless : ∀ o ∈ h, o.loses = false) : Delivers capacity h := by
  have kept := kept_run capacity lossless
  refine ⟨fun s hs held => ?_, fun name free => ?_, fun m hm name e he => ?_, kept.delivered,
    fun m _ agent handle detached => ?_⟩
  · obtain ⟨i, hi, serves⟩ := (exists_of_forall₂ kept.served).1 s (List.mem_filter.mpr ⟨hs, held⟩)
    exact ⟨i, serves.name ▸ inbox?_of_mem kept.names hi, serves.contents⟩
  · refine List.find?_eq_none.mpr fun i hi same => ?_
    obtain ⟨s, hs, serves⟩ := (exists_of_forall₂ kept.served).2 i hi
    obtain ⟨made, held⟩ := List.mem_filter.mp hs
    exact free s made held (serves.name.symm.trans (of_decide_eq_true same))
  · obtain ⟨rest, split⟩ := split_of_mem_moments hm
    have past := kept_run capacity (h := m.past) fun o ho => lossless o (split ▸ List.mem_append_left _ ho)
    obtain ⟨i, hi, waits⟩ := mem_queue_of_received he
    exact past.published hi waits
  · have absent : agent ∉ (run capacity m.past).agents := by simp [mem_agents_run, detached]
    cases named : m.operation with
    | publish agent' e qos =>
      rw [named] at handle
      cases handle
      rw [operate_publish, if_neg absent]
    | subscribe agent' name topics =>
      rw [named] at handle
      cases handle
      rw [operate_subscribe, if_neg absent]
    | _ =>
      rw [named] at handle
      cases handle

end Delivers

/-- A broadcast that gives no true sender. -/
def greeting : Envelope :=
  { topic := "news", sender := "", recipient := none, sent := .epoch,
    message := .heartbeat { term := 1, leader := "A", time := .epoch } }

/-- `B` reads its inbox of one after two broadcasts of `A`, leaves after the third and misses the
fourth. -/
def traffic : List Operation :=
  [.attach "A", .attach "B", .subscribe "B" "b" ["news"], .publish "A" greeting .atLeastOnce,
    .publish "A" greeting .atLeastOnce, .drain "b", .publish "A" greeting .atMostOnce,
    .detach "B", .publish "A" greeting .atLeastOnce, .publish "B" greeting .atLeastOnce]

theorem bus_delivery_traffic : (∀ o ∈ traffic, o.loses = false) ∧
    (subscriptions traffic).map (fun s => (s.received 1 traffic, s.arrivals 1 traffic)) =
      [([{ greeting with sender := "A" }],
        [{ greeting with sender := "A" }, { greeting with sender := "A" }])] ∧
    Delivers 1 traffic :=
  ⟨by decide, rfl, bus_delivery 1 (by decide)⟩

end FleetCoordination.Network
