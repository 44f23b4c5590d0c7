import FleetCoordination.Proofs.Engine.Collecting
import FleetCoordination.Proofs.Engine.Slots
/-!
# Reports of propagations

A propagation is reported as of the peers that were alive when it was asked for, of the
acknowledgements that have come for it since, and of how its own application has ended, which
begins when its message is out. It is reported in time, and what is recorded of the peers is what
the report says.
-/
namespace FleetCoordination

namespace Engine
variable {κ : Type}

/-! ## Turns of a propagation -/

namespace Turn
variable (t : Turn κ) (id : ProposalId)

/-- The acknowledgement of an action that comes in a turn. -/
def acks : List ActionAck :=
  match t.input with
  | .ack a => if a.id = id then [a] else []
  | _ => []

/-- Whether the inbox of a propagation is full when a turn comes. -/
def ackFull : Bool := (t.before.propagation? id).any fun p => decide (p.room ≤ p.inbox.length)

/-- Whether an acknowledgement is lost in a turn. -/
def Overfills : Prop := t.ackFull id = true ∧ t.acks id ≠ []

/-- The acknowledgement that comes in a turn and is not lost. -/
def queues : List ActionAck := if t.ackFull id then [] else t.acks id

/-- Whether the bus has taken the message of a propagation in a turn. -/
def Posts : Prop := t.input = .posted (.propagation id) (.ok ())

/-- What an application that is set about in a turn comes to, if that is known at once. -/
def prompt? (action : String) (params : Json) : Option Bool := (t.before.ledger.start id action params).2.ok?

/-- How an application ends in a turn. -/
def ends? (ticket : Nat) : Option Bool :=
  match t.input with
  | .executed ticket' ended => if ticket' = ticket then some ended.isOk else none
  | _ => none

/-- The peers that a turn propagates to. -/
def targets : Finset AgentId := t.surroundings.alive.toFinset.erase t.before.self

variable {t id}

theorem queues_of_room (room : ¬t.Overfills id) : t.queues id = t.acks id := by
  unfold queues
  split
  · next full => exact (Decidable.not_not.mp fun lost => room ⟨full, lost⟩).symm
  · rfl

theorem queues_of_silent (silent : t.acks id = []) : t.queues id = [] := by
  simp [queues, silent]

theorem ends?_of_apart {ticket : Nat} (apart : t.input.ticket? ≠ some ticket) : t.ends? ticket = none := by
  unfold ends?
  split
  · next ticket' ended asked => exact if_neg fun same => apart (by rw [asked, Input.ticket?, same])
  · rfl

end Turn

/-- The acknowledgements of an action that come in some turns. -/
def acks (turns : List (Turn κ)) (id : ProposalId) : List ActionAck := turns.flatMap (·.acks id)

/-- Those that are not lost. -/
def queues (turns : List (Turn κ)) (id : ProposalId) : List ActionAck := turns.flatMap (·.queues id)

/-- The sender's own application of a propagated action in some turns since it was asked for. It is
set about in the first turn in which the message is out, by then or in the turns since it comes to
what it comes to, and in the meantime it is with the executor. -/
structure Launched (id : ProposalId) (action : String) (params : Json) (run : List (Turn κ)) (u : Turn κ)
    (since : List (Turn κ)) : Prop where
  first : ∃ sent, run = sent ++ u :: since ∧ ∀ v ∈ sent, ¬v.Posts id
  posts : u.Posts id
  handed : u.prompt? id action params = none → .execute u.before.tickets action params ∈ u.outputs

/-- What an application that is set about in a turn has come to in the turns since. -/
def returned? (id : ProposalId) (action : String) (params : Json) (u : Turn κ) (since : List (Turn κ)) : Option Bool :=
  (u.prompt? id action params).or (since.findSome? (·.ends? u.before.tickets))

/-- How far the sender's own part has come in some turns since a propagation was asked for, and which
of its applications is with the executor. -/
inductive Comes (id : ProposalId) (action : String) (params : Json) :
    List (Turn κ) → Progress → List Nat → Prop
  | posting {run : List (Turn κ)} (quiet : ∀ v ∈ run, ¬v.Posts id) : Comes id action params run .posting []
  | working {run since : List (Turn κ)} {u : Turn κ} (launched : Launched id action params run u since)
      (open_ : returned? id action params u since = none) : Comes id action params run .working [u.before.tickets]
  | reading {run since : List (Turn κ)} {u : Turn κ} {ok : Bool} (launched : Launched id action params run u since)
      (over_ : returned? id action params u since = some ok) : Comes id action params run (.reading ok) []

section Turns
variable (u t : Turn κ) (run : List (Turn κ)) (id : ProposalId) (action : String) (params : Json)

@[simp] theorem queues_snoc : queues (run ++ [t]) id = queues run id ++ t.queues id := by simp [queues]

@[simp] theorem returned?_snoc : returned? id action params u (run ++ [t]) =
    (returned? id action params u run).or (t.ends? u.before.tickets) := by
  simp [returned?, List.findSome?_append, Option.or_assoc]

theorem queues_eq_acks {run : List (Turn κ)} {id : ProposalId} (room : ∀ u ∈ run, ¬u.Overfills id) :
    queues run id = acks run id := by
  induction run with
  | nil => rfl
  | cons t rest ih =>
    obtain ⟨first, later⟩ := List.forall_mem_cons.mp room
    exact congrArg₂ (· ++ ·) (Turn.queues_of_room first) (ih later)

end Turns

/-! ## Propagations under way -/

/-- Whether a turn asks for a propagation that is not refused, and hands its message to the bus. -/
structure Turn.Sends (s : Turn κ) (caller : κ) (id : ProposalId) (action : String) (params : Json) (timeout : Nat) :
    Prop where
  asked : s.input = .propagate caller id action params timeout
  free : s.before.propagation? id = none
  opens : s.after = s.before.openPropagation (s.before.sending s.surroundings caller id action params timeout)
  posts : s.outputs = [.post (.propagation id) (s.before.order s.surroundings id action params)]

/-- What is known of a propagation in the turns since the one that asked for it. -/
structure Gathers (s : Turn κ) (run : List (Turn κ)) (p : Propagation κ) (owed : List Nat) : Prop where
  asked : ∃ timeout, s.Sends p.caller p.id p.action p.params timeout ∧ p.deadline = s.surroundings.now + timeout
  lasts : ∀ u ∈ run, (u.before.propagation? p.id).isSome = true
  targets : p.targets = Text.sorted (s.surroundings.alive.filter fun a => a ≠ s.before.self)
  part : Comes p.id p.action p.params run p.progress owed
  holds : p.Holds (queues run p.id)

/-! ### The sender's own part -/

section Part
variable {id : ProposalId} {action : String} {params : Json} {run since : List (Turn κ)} {u t : Turn κ}
  {progress : Progress} {owed : List Nat} {ok : Bool}

theorem Launched.snoc (h : Launched id action params run u since) (t : Turn κ) :
    Launched id action params (run ++ [t]) u (since ++ [t]) := by
  obtain ⟨⟨sent, rfl, quiet⟩, posts, handed⟩ := h
  exact ⟨⟨sent, by simp, quiet⟩, posts, handed⟩

namespace Comes

/-- A turn leaves the sender's own part alone that neither begins nor ends it. -/
theorem keep (h : Comes id action params run progress owed) (quiet : progress = .posting → ¬t.Posts id)
    (apart : ∀ ticket ∈ owed, t.ends? ticket = none) : Comes id action params (run ++ [t]) progress owed := by
  cases h with
  | posting silent => exact .posting (List.forall_mem_append.mpr ⟨silent, List.forall_mem_singleton.mpr (quiet rfl)⟩)
  | working launched open_ =>
    exact .working (launched.snoc t) (by rw [returned?_snoc, open_, Option.none_or, apart _ List.mem_cons_self])
  | reading launched over_ => exact .reading (launched.snoc t) (by rw [returned?_snoc, over_, Option.some_or])

/-- The end of the application that is with the executor ends the sender's own part. -/
theorem ended {ticket : Nat} (h : Comes id action params run progress owed) (mem : ticket ∈ owed)
    (ends : t.ends? ticket = some ok) : Comes id action params (run ++ [t]) (.reading ok) [] := by
  cases h with
  | posting | reading => cases mem
  | working launched open_ =>
    obtain rfl := List.mem_singleton.mp mem
    exact .reading (launched.snoc t) (by rw [returned?_snoc, open_, Option.none_or, ends])

variable (h : Comes id action params run .posting owed) (posts : t.Posts id)
include h posts

/-- Word that the message is out begins the sender's own part, -/
theorem launched (handed : t.prompt? id action params = none → .execute t.before.tickets action params ∈ t.outputs) :
    Launched id action params (run ++ [t]) t [] := by
  cases h with
  | posting quiet => exact ⟨⟨run, rfl, quiet⟩, posts, handed⟩

/-- which the executor is to carry out -/
theorem handed (open_ : t.prompt? id action params = none)
    (asks : .execute t.before.tickets action params ∈ t.outputs) :
    Comes id action params (run ++ [t]) .working [t.before.tickets] :=
  .working (h.launched posts fun _ => asks) (by simp [returned?, open_])

/-- or which ends at once. -/
theorem begun (known : t.prompt? id action params = some ok) : Comes id action params (run ++ [t]) (.reading ok) [] :=
  .reading (h.launched posts fun open_ => by simp [known] at open_) (by simp [returned?, known])

end Comes

theorem Comes.idle (h : Comes id action params run progress owed) (over_ : progress ≠ .working) : owed = [] := by
  cases h with
  | posting | reading => rfl
  | working => exact (over_ rfl).elim

theorem Comes.silent (h : Comes id action params run .posting owed) : ∀ v ∈ run, ¬v.Posts id := by
  cases h with
  | posting quiet => exact quiet

theorem Comes.came (h : Comes id action params run progress owed) (own : progress.own = some ok) :
    ∃ u since, Launched id action params run u since ∧ returned? id action params u since = some ok := by
  cases h with
  | posting | working => cases own
  | reading launched over_ =>
    cases own
    exact ⟨_, _, launched, over_⟩

theorem Comes.owed_of_working (h : Comes id action params run .working owed) : ∃ ticket, owed = [ticket] := by
  cases h with
  | working => exact ⟨_, rfl⟩

theorem Comes.owed_eq {ticket : Nat} (h : Comes id action params run progress owed) (mem : ticket ∈ owed) :
    owed = [ticket] := by
  cases h with
  | posting | reading => cases mem
  | working => rw [List.mem_singleton.mp mem]

end Part

namespace Gathers
variable {s t : Turn κ} {run : List (Turn κ)} {p p' : Propagation κ} {owed owed' : List Nat}

theorem turn (h : Gathers s run p owed) (held : t.before.propagation? p.id = some p) (plan : p'.plan = p.plan)
    (part : Comes p.id p.action p.params (run ++ [t]) p'.progress owed')
    (holds : p'.Holds (queues run p.id ++ t.queues p.id)) : Gathers s (run ++ [t]) p' owed' := by
  simp only [Propagation.plan, Prod.mk.injEq] at plan
  obtain ⟨caller, id, action, params, targets, deadline⟩ := plan
  refine ⟨?_, ?_, targets.trans h.targets, ?_, ?_⟩
  · rw [caller, id, action, params, deadline]
    exact h.asked
  · rw [id]
    exact List.forall_mem_append.mpr ⟨h.lasts, List.forall_mem_singleton.mpr (by rw [held]; rfl)⟩
  · rw [id, action, params]
    exact part
  · rw [id, queues_snoc]
    exact holds

theorem offered (h : Gathers s run p owed) (held : t.before.propagation? p.id = some p) {a : ActionAck}
    (mine : a.id = p.id) (came : t.input = .ack a) : Gathers s (run ++ [t]) (p.offer a) owed := by
  obtain ⟨plan, progress⟩ := p.plan_offer a
  have queues : t.queues p.id = if p.inbox.length < p.room then [a] else [] := by
    have full : t.ackFull p.id = decide (p.room ≤ p.inbox.length) := by simp [Turn.ackFull, held]
    by_cases room : p.inbox.length < p.room
    · simp [Turn.queues, Turn.acks, came, mine, full, room, Nat.not_le.mpr room]
    · simp [Turn.queues, full, room, Nat.not_lt.mp room]
  refine h.turn held plan ?_ ?_
  · rw [progress]
    exact h.part.keep (by simp [Turn.Posts, came]) fun _ _ => Turn.ends?_of_apart (by simp [came, Input.ticket?])
  · rw [queues]
    exact h.holds.offer a

theorem next (h : Gathers s run p owed) (held : t.before.propagation? p.id = some p) {id : ProposalId}
    (came : t.input = .readAck id) : Gathers s (run ++ [t]) (p.read?.getD p) owed := by
  obtain ⟨plan, progress⟩ := p.plan_next
  have silent : t.queues p.id = [] := Turn.queues_of_silent (by simp [Turn.acks, came])
  refine h.turn held plan ?_ ?_
  · rw [progress]
    exact h.part.keep (by simp [Turn.Posts, came]) fun _ _ => Turn.ends?_of_apart (by simp [came, Input.ticket?])
  · rw [silent, List.append_nil]
    exact h.holds.next

/-- A propagation that only its own part has moved on holds what it held. -/
theorem moved (h : Gathers s run p owed) (held : t.before.propagation? p.id = some p) (silent : t.acks p.id = [])
    {progress : Progress} (part : Comes p.id p.action p.params (run ++ [t]) progress owed') :
    Gathers s (run ++ [t]) { p with progress } owed' := by
  refine h.turn held rfl part ?_
  rw [Turn.queues_of_silent silent, List.append_nil]
  exact ⟨h.holds.read, h.holds.once⟩

theorem mem_targets (h : Gathers s run p owed) {a : AgentId} : a ∈ p.targets ↔ a ∈ s.targets := by
  simp [h.targets, Turn.targets, and_comm]

theorem nodup_targets (h : Gathers s run p owed) : p.targets.Nodup := h.targets ▸ Text.nodup_sorted _

theorem length_targets (h : Gathers s run p owed) : p.targets.length = s.targets.card := by
  have same : p.targets.toFinset = s.targets := by
    ext a
    rw [List.mem_toFinset, h.mem_targets]
  rw [← same, List.toFinset_card_of_nodup h.nodup_targets]

end Gathers

/-- What is known after some turns of the propagation of an id, and of the application of its action. -/
def Traced (turns : List (Turn κ)) (k : Collection κ) (id : ProposalId) : Prop :=
  k.find? id = none ∧ k.pending id = [] ∨
    ∃ before s run p, turns = before ++ s :: run ∧ k.find? id = some p ∧ Gathers s run p (k.pending id)

section Traced
variable {turns : List (Turn κ)} {k : Collection κ} {id : ProposalId} {t : Turn κ} {p : Propagation κ}
  {ticket : Nat}

/-- What is not touched in a turn stays traced. -/
theorem Traced.keep (h : Traced turns t.before.collection id) (found : k.find? id = t.before.collection.find? id)
    (pending : k.pending id = t.before.collection.pending id)
    (silent : t.before.collection.find? id ≠ none → t.queues id = [])
    (quiet : ∀ p, t.before.collection.find? id = some p → p.progress = .posting → ¬t.Posts id)
    (apart : ∀ ticket ∈ t.before.collection.pending id, t.input.ticket? ≠ some ticket) :
    Traced (turns ++ [t]) k id := by
  obtain ⟨free, idle⟩ | ⟨before, s, run, p, rfl, held, gathers⟩ := h
  · exact .inl ⟨found.trans free, pending.trans idle⟩
  · obtain rfl := Collection.id_of_find? held
    have part := gathers.part.keep (quiet p held) fun ticket mem => Turn.ends?_of_apart (apart ticket mem)
    have holds : p.Holds (queues run p.id ++ t.queues p.id) := by
      rw [silent (by simp [held]), List.append_nil]
      exact gathers.holds
    exact .inr ⟨before, s, run ++ [t], p, by simp, found.trans held, pending ▸ gathers.turn held rfl part holds⟩

/-- The end of an application moves its propagation on. -/
theorem Traced.collected (h : Traced turns k id) (once : (k.applying.map (·.ticket)).Nodup)
    (mem : ticket ∈ k.pending id) (ended : Except ExecutionFault Unit) : ∃ p, k.find? id = some p ∧
      k.collected? (.executed ticket ended) = some { p with progress := .reading ended.isOk } := by
  obtain ⟨-, idle⟩ | ⟨-, -, -, p, -, held, -⟩ := h
  · simp [idle] at mem
  · obtain ⟨a, found, rfl⟩ := Collection.find_pending once mem
    exact ⟨p, held, by simp [Collection.collected?, found, held]⟩

/-- An application whose propagation is not moved on does not end. -/
theorem Traced.apart (h : Traced turns k id) (once : (k.applying.map (·.ticket)).Nodup) {i : Input κ}
    (other : ∀ p, k.collected? i = some p → p.id ≠ id) : ∀ ticket ∈ k.pending id, i.ticket? ≠ some ticket := by
  intro ticket mem ends
  obtain ⟨ended, rfl⟩ : ∃ ended, i = .executed ticket ended := by
    cases i <;> simp [Input.ticket?] at ends
    exact ⟨_, by rw [ends]⟩
  obtain ⟨p, held, moved⟩ := h.collected once mem ended
  exact other _ moved (show p.id = id from Collection.id_of_find? held)

theorem pending_release_of_apart {ticket? : Option Nat} (apart : ∀ ticket ∈ k.pending id, ticket? ≠ some ticket) :
    (k.release ticket?).pending id = k.pending id := by
  rw [Collection.pending_release]
  exact List.filter_eq_self.mpr fun ticket mem => by simpa using (apart ticket mem).symm

theorem Traced.held (h : Traced turns k id) (held : k.find? id = some p) :
    ∃ before s run, turns = before ++ s :: run ∧ Gathers s run p (k.pending id) := by
  obtain ⟨free, -⟩ | ⟨before, s, run, q, rfl, found, gathers⟩ := h
  · rw [free] at held
    cases held
  · obtain rfl := Option.some.inj (found.symm.trans held)
    exact ⟨before, s, run, rfl, gathers⟩

/-- A propagation that is moved on is traced, and its own application is over. -/
theorem gathers_of_collected (h : ∀ id, Traced turns t.before.collection id)
    (moved : t.before.collection.collected? t.input = some p) :
    (∃ q, t.before.collection.find? p.id = some q) ∧ (t.before.collection.release t.input.ticket?).pending p.id = [] ∧
      ∃ before s run, turns ++ [t] = before ++ s :: run ∧ Gathers s run p [] := by
  unfold Collection.collected? at moved
  split at moved
  · next id came =>
    obtain ⟨q, held, read⟩ := Option.bind_eq_some_iff.mp moved
    split at read
    · next over_ =>
      obtain rfl := Option.some.inj read
      obtain rfl := Collection.id_of_find? held
      obtain ⟨plan, -⟩ := q.plan_next
      obtain ⟨before, s, run, rfl, gathers⟩ := (h q.id).held held
      have ended : q.progress ≠ .working := by
        intro works
        simp [Propagation.own, works, Progress.own] at over_
      have idle := gathers.part.idle ended
      rw [idle] at gathers
      rw [Propagation.id_of_plan plan]
      refine ⟨⟨q, held⟩, ?_, before, s, run ++ [t], by simp, gathers.next held came⟩
      rw [pending_release_of_apart (by simp [came, Input.ticket?]), idle]
    · cases read
  · next ticket result came =>
    obtain ⟨a, found, ends⟩ := Option.bind_eq_some_iff.mp moved
    obtain ⟨q, held, rfl⟩ := Option.map_eq_some_iff.mp ends
    obtain rfl : a.ticket = ticket := by simpa using List.find?_some found
    have same : q.id = a.id := Collection.id_of_find? held
    have mem : a.ticket ∈ t.before.collection.pending q.id :=
      Collection.mem_pending.mpr ⟨a, List.mem_of_find?_eq_some found, same.symm, rfl⟩
    obtain ⟨before, s, run, rfl, gathers⟩ := (h q.id).held (same ▸ held)
    have ends : t.ends? a.ticket = some result.isOk := by simp [Turn.ends?, came]
    have part := gathers.part.ended mem ends
    refine ⟨⟨q, same ▸ held⟩, ?_, before, s, run ++ [t], by simp,
      gathers.moved (same ▸ held) (by simp [Turn.acks, came]) part⟩
    rw [Collection.pending_release, gathers.part.owed_eq mem, came]
    simp [Input.ticket?]
  · cases moved

theorem Traced.idle (h : Traced turns k id) (free : k.find? id = none) : k.pending id = [] := by
  obtain ⟨-, idle⟩ | ⟨-, -, -, p, -, held, -⟩ := h
  · exact idle
  · rw [free] at held
    cases held

/-- A propagation whose own application is over is traced until it is settled. -/
theorem Gathers.close {s : Turn κ} {before run : List (Turn κ)} (h : Gathers s run p []) (held : k.find? p.id ≠ none)
    (idle : k.pending p.id = []) (split : turns = before ++ s :: run) (now : Nat) :
    Traced turns (k.close now p) p.id := by
  obtain ⟨q, held⟩ := Option.ne_none_iff_exists'.mp held
  have pending : (k.close now p).pending p.id = [] := by
    rw [Collection.pending, Collection.applying_close]
    exact idle
  have found := Collection.find?_close_self held now
  split at found
  · exact .inl ⟨found, pending⟩
  · exact .inr ⟨before, s, run, p, split, found, pending.symm ▸ h⟩

end Traced

section Step
variable {turns : List (Turn κ)} {e : Engine κ} {c : Surroundings} {i : Input κ} {id : ProposalId} {action : String}
  {params : Json} {p : Propagation κ}

theorem gathers_sent (free : e.propagation? id = none) (caller : κ) (timeout : Nat)
    (same : e.propagate c caller id action params timeout =
      (e.openPropagation (e.sending c caller id action params timeout),
        [.post (.propagation id) (e.order c id action params)])) :
    Gathers ⟨e, c, .propagate caller id action params timeout⟩ [] (e.sending c caller id action params timeout) [] where
  asked := ⟨timeout, ⟨rfl, free, congrArg Prod.fst same, congrArg Prod.snd same⟩, rfl⟩
  lasts := by simp
  targets := rfl
  part := .posting (by simp)
  holds := ⟨⟨[], rfl, by simp [Applied, sending]⟩, List.nodup_nil⟩

variable (h : ∀ id, Traced turns e.collection id)
include h

theorem traced_idle (tickets : (e.collection.applying.map (·.ticket)).Nodup) (still : e.collection.collected? i = none)
    (stray : ∀ a, i = .ack a → e.propagation? a.id = none)
    (settled : ∀ id ended p, i = .posted (.propagation id) ended → e.propagation? id = some p → p.progress ≠ .posting)
    (id : ProposalId) : Traced (turns ++ [⟨e, c, i⟩]) (e.collection.release i.ticket?) id := by
  have apart := (h id).apart tickets (i := i) (by simp [still])
  refine (h id).keep rfl (pending_release_of_apart apart) (fun held => Turn.queues_of_silent ?_)
    (fun p held waits posts => settled id _ p posts held waits) apart
  unfold Turn.acks
  dsimp only
  split
  · next a => exact if_neg fun mine => held (by rw [← mine]; exact stray a rfl)
  · rfl

theorem traced_offered {a : ActionAck} {p : Propagation κ} (found : e.propagation? a.id = some p) (id : ProposalId) :
    Traced (turns ++ [⟨e, c, .ack a⟩]) (e.collection.set (p.offer a)) id := by
  have same : p.id = a.id := id_of_propagation? found
  have held : e.collection.find? (p.offer a).id = some p := by
    rw [p.id_offer, same]
    exact found
  by_cases mine : id = (p.offer a).id
  · subst mine
    obtain ⟨before, s, run, rfl, gathers⟩ := (h _).held held
    exact .inr ⟨before, s, run ++ [⟨e, c, .ack a⟩], p.offer a, by simp, Collection.find?_set_self held,
      gathers.offered (same ▸ found) same.symm rfl⟩
  · have other : a.id ≠ id := fun other => mine (by rw [p.id_offer, same, other])
    exact (h id).keep (Collection.find?_set_ne mine) rfl (fun _ => Turn.queues_of_silent (if_neg other))
      (by simp [Turn.Posts]) (by simp [Input.ticket?])

theorem traced_opened (free : e.propagation? id = none) (caller : κ) (timeout : Nat)
    (same : e.propagate c caller id action params timeout =
      (e.openPropagation (e.sending c caller id action params timeout),
        [.post (.propagation id) (e.order c id action params)])) (id' : ProposalId) :
    Traced (turns ++ [⟨e, c, .propagate caller id action params timeout⟩])
      (e.collection.start (e.sending c caller id action params timeout)) id' := by
  let p := e.sending c caller id action params timeout
  by_cases mine : id' = id
  · subst mine
    have idle : (e.collection.start p).pending id' = [] := (h id').idle free
    exact .inr ⟨turns, _, [], p, rfl, Collection.find?_start_self (p := p) free,
      idle.symm ▸ gathers_sent free caller timeout same⟩
  · exact (h id').keep (Collection.find?_start_ne (p := p) mine) rfl (fun _ => Turn.queues_of_silent rfl)
      (by simp [Turn.Posts]) (by simp [Input.ticket?])

theorem traced_moved (tickets : (e.collection.applying.map (·.ticket)).Nodup) {p : Propagation κ}
    (moved : e.collection.collected? i = some p) (id : ProposalId) :
    Traced (turns ++ [⟨e, c, i⟩]) ((e.collection.release i.ticket?).close c.now p) id := by
  obtain ⟨⟨q, held⟩, idle, before, s, run, split, gathers⟩ := gathers_of_collected (t := ⟨e, c, i⟩) h moved
  by_cases mine : id = p.id
  · subst mine
    exact gathers.close (k := e.collection.release i.ticket?) (Option.ne_none_iff_exists'.mpr ⟨q, held⟩) idle
      split c.now
  · have apart := (h id).apart tickets fun p' moved' => by
      rw [← Option.some.inj (moved.symm.trans moved')]
      exact Ne.symm mine
    refine (h id).keep (Collection.find?_close_ne mine c.now) ?_ (fun _ => Turn.queues_of_silent ?_) ?_ apart
    · rw [Collection.pending, Collection.applying_close]
      exact pending_release_of_apart apart
    · cases i <;> first | rfl | cases moved
    · rintro - - - ⟨⟩
      cases moved

section Posted
variable (found : e.propagation? p.id = some p) (waits : p.progress = .posting)
include found waits

/-- A propagation whose message is with the bus has no application yet. -/
theorem gathers_of_posting : ∃ before s run, turns = before ++ s :: run ∧ e.collection.pending p.id = [] ∧
    Gathers s run p [] := by
  obtain ⟨before, s, run, rfl, gathers⟩ := (h p.id).held found
  have idle := gathers.part.idle (by simp [waits])
  exact ⟨before, s, run, rfl, idle, idle ▸ gathers⟩

theorem traced_abandoned (f : TransportFault) (id : ProposalId) :
    Traced (turns ++ [⟨e, c, .posted (.propagation p.id) (.error f)⟩]) (e.collection.drop p.id) id := by
  by_cases mine : id = p.id
  · subst mine
    obtain ⟨-, -, -, -, idle, -⟩ := gathers_of_posting h found waits
    exact .inl ⟨Collection.find?_drop_self .., idle⟩
  · exact (h id).keep (Collection.find?_drop_ne mine) rfl (fun _ => Turn.queues_of_silent rfl) (by simp [Turn.Posts])
      (by simp [Input.ticket?])

theorem traced_handed (handed : (e.ledger.start p.id p.action p.params).2.ok? = none)
    (asks : .execute e.tickets p.action p.params ∈ (e.propagationPosted c p.id (.ok ())).2) (id : ProposalId) :
    Traced (turns ++ [⟨e, c, .posted (.propagation p.id) (.ok ())⟩])
      { e.collection.set p.sent with
        applying := e.collection.applying ++
          [{ ticket := e.tickets, id := p.id, action := p.action, purpose := .propagation }] } id := by
  by_cases mine : id = p.id
  · subst mine
    obtain ⟨before, s, run, rfl, idle, gathers⟩ := gathers_of_posting h found waits
    let t : Turn κ := ⟨e, c, .posted (.propagation p.id) (.ok ())⟩
    have part : Comes p.id p.action p.params (run ++ [t]) .working [e.tickets] :=
      (waits ▸ gathers.part).handed (t := t) rfl handed asks
    refine .inr ⟨before, s, run ++ [t], p.sent, by simp [t], Collection.find?_set_self (p := p.sent) found, ?_⟩
    have pending : Collection.pending { e.collection.set p.sent with
        applying := e.collection.applying ++
          [{ ticket := e.tickets, id := p.id, action := p.action, purpose := .propagation }] } p.id = [e.tickets] := by
      simp only [Collection.pending, List.filter_append, List.map_append] at idle ⊢
      rw [idle]
      simp
    rw [pending]
    exact gathers.moved found rfl part
  · refine (h id).keep (Collection.find?_set_ne (p := p.sent) mine) ?_ (fun _ => Turn.queues_of_silent rfl) ?_
      (by simp [Input.ticket?])
    · simp [Collection.pending, Ne.symm mine]
    · simp [Turn.Posts, Ne.symm mine]

/-- An application that comes to an end at once leaves its propagation to be read. -/
theorem gathers_begun {ok : Bool} (known : (e.ledger.start p.id p.action p.params).2.ok? = some ok) :
    ∃ before s run, turns ++ [⟨e, c, .posted (.propagation p.id) (.ok ())⟩] = before ++ s :: run ∧
      e.collection.pending p.id = [] ∧ Gathers s run { p with progress := .reading ok } [] := by
  obtain ⟨before, s, run, rfl, idle, gathers⟩ := gathers_of_posting h found waits
  let t : Turn κ := ⟨e, c, .posted (.propagation p.id) (.ok ())⟩
  have part : Comes p.id p.action p.params (run ++ [t]) (.reading ok) [] :=
    (waits ▸ gathers.part).begun (t := t) rfl known
  exact ⟨before, s, run ++ [t], List.append_assoc before (s :: run) [t], idle, gathers.moved (t := t) found rfl part⟩

theorem traced_begun {ok : Bool} (known : (e.ledger.start p.id p.action p.params).2.ok? = some ok) (id : ProposalId) :
    Traced (turns ++ [⟨e, c, .posted (.propagation p.id) (.ok ())⟩])
      ((e.collection.set p.sent).close c.now { p with progress := .reading ok }) id := by
  have replaced := Collection.find?_set_self (k := e.collection) (p := p.sent) found
  by_cases mine : id = p.id
  · subst mine
    obtain ⟨before, s, run, split, idle, gathers⟩ := gathers_begun (c := c) h found waits known
    have held : (e.collection.set p.sent).find? p.id ≠ none := by
      rw [show p.id = p.sent.id from rfl, replaced]
      exact Option.some_ne_none _
    exact gathers.close held idle split c.now
  · refine (h id).keep ?_ ?_ (fun _ => Turn.queues_of_silent rfl) ?_ (by simp [Input.ticket?])
    · have kept := Collection.find?_set_ne (k := e.collection) (p := p.sent) mine
      exact (Collection.find?_close_ne (p := { p with progress := .reading ok }) mine c.now).trans kept
    · rw [Collection.pending, Collection.applying_close]
      rfl
    · simp [Turn.Posts, Ne.symm mine]

end Posted

theorem traced_step (once : (e.applications.map (·.ticket)).Nodup) (c : Surroundings) (i : Input κ) (id : ProposalId) :
    Traced (turns ++ [⟨e, c, i⟩]) (e.step c i).1.collection id := by
  have gathering := gathering_step once c i
  have tickets : (e.collection.applying.map (·.ticket)).Nodup := once.sublist (List.filter_sublist.map _)
  generalize (e.step c i).1.collection = k at gathering ⊢
  generalize deliveries (e.step c i).2 = told at gathering
  cases gathering with
  | idle still unasked stray settled => exact traced_idle h tickets still stray settled id
  | refused =>
    exact (h id).keep rfl rfl (fun _ => Turn.queues_of_silent rfl) (by simp [Turn.Posts]) (by simp [Input.ticket?])
  | offered a p found => exact traced_offered h found id
  | opened caller id' action params timeout free same => exact traced_opened h free caller timeout same id
  | abandoned p f found waits => exact traced_abandoned h found waits f id
  | handed p found waits handed asks => exact traced_handed h found waits handed asks id
  | begun p ok found waits known => exact traced_begun h found waits known id
  | moved p moved => exact traced_moved h tickets moved id

end Step

section Histories
variable {self : AgentId} {settings : ConsensusSettings} {fallback : Bool} {turns : List (Turn κ)} {e : Engine κ}

theorem History.traced (h : History (create self settings fallback) turns e) (id : ProposalId) :
    Traced turns e.collection id := by
  induction h generalizing id with
  | start => exact .inl ⟨rfl, rfl⟩
  | step past c i ih => exact traced_step ih past.kept.tickets c i id

end Histories

/-! ## Reports -/

/-- What turn `t` reports of a propagation that turn `s` has asked for, of which the turns `run` have
come since, and what it records of the peers. -/
structure Reported (s : Turn κ) (run : List (Turn κ)) (t : Turn κ) (caller : κ) (action : String) (params : Json)
    (ok : Bool) (report : PropagationReport) : Prop where
  /-- It is not reported before its time, unless nobody is missing. -/
  asked : ∃ timeout, s.Sends caller report.id action params timeout ∧
    (report.missing = [] ∨ s.surroundings.now + timeout ≤ t.surroundings.now)
  /-- It has been under way since. -/
  lasts : ∀ u ∈ run, (u.before.propagation? report.id).isSome = true
  /-- The sender's own application, set about once the message was out, has gone well or not. -/
  own : ∃ u since, Launched report.id action params run u since ∧
    returned? report.id action params u since = some ok
  expected : report.expected = s.targets.card + 1
  ordered : report.missing.Pairwise (· < ·)
  among : ∀ a ∈ report.missing, a ∈ s.targets
  /-- If no acknowledgement was lost, who is missing has sent none that says that the action was applied. -/
  missing : (∀ u ∈ run, ¬u.Overfills report.id) → ∀ a, a ∈ report.missing ↔
    a ∈ s.targets ∧ ¬Applied (acks run report.id) a
  acknowledged : report.acknowledged = s.targets.card - report.missing.length + ok.toNat
  compliance : report.compliance = Float.ofNat report.acknowledged / Float.ofNat report.expected
  share : report.acknowledged ≤ report.expected ∧
    (report.acknowledged = report.expected ↔ report.missing = [] ∧ ok = true)
  /-- So it is with the compliance, as floats tell whole numbers of that size apart. -/
  unit : report.expected < 2 ^ 53 → 0.0 ≤ report.compliance ∧ report.compliance ≤ 1.0 ∧
    (report.compliance = 1.0 ↔ report.missing = [] ∧ ok = true)
  tracked : ∀ a, t.after.tracker.counts.get? a =
    if a ∈ s.targets then some ((t.before.tracker.count a).bump (decide (a ∉ report.missing)))
    else t.before.tracker.counts.get? a

theorem Gathers.reported {s t : Turn κ} {run : List (Turn κ)} {p : Propagation κ} (h : Gathers s run p [])
    (settled : p.settled t.surroundings.now = true) (tracked : t.after.tracker = p.track t.before.tracker) :
    ∃ ok, Reported s run t p.caller p.action p.params ok p.report := by
  obtain ⟨over_, ended⟩ := Bool.and_eq_true_iff.mp settled
  obtain ⟨ok, own⟩ := Option.isSome_iff_exists.mp over_
  obtain ⟨timeout, sends, deadline⟩ := h.asked
  have missing a : a ∈ p.missing ↔ a ∈ s.targets ∧ ¬Applied (queues run p.id) a := by
    rw [h.holds.mem_missing settled, h.mem_targets]
  have increasing : p.targets.Pairwise (· < ·) := h.targets ▸ Text.pairwise_sorted _
  have count := Propagation.acknowledged_report (α := Float) h.holds h.nodup_targets own
  have share := Propagation.acknowledged_report_le (α := Float) h.holds h.nodup_targets own
  refine ⟨ok, ⟨timeout, sends, ?_⟩, h.lasts, h.part.came own, congrArg (· + 1) h.length_targets,
    increasing.filter _, fun a ha => ((missing a).mp ha).1, fun room a => ?_, ?_, rfl, share, fun exact_ => ?_,
    fun a => ?_⟩
  · exact deadline ▸ h.holds.late h.nodup_targets settled
  · rw [← queues_eq_acks room]
    exact missing a
  · rw [count, h.length_targets]
    rfl
  · obtain ⟨low, high, full⟩ := Scalar.share_unit share.1 (Nat.succ_pos _) exact_
    exact ⟨low, high, full.trans share.2⟩
  · rw [tracked, Propagation.get?_track h.nodup_targets]
    exact if_congr h.mem_targets rfl rfl

/-- Whether a turn refuses a propagation, as its id is in use. -/
structure Turn.Collides (t : Turn κ) (caller : κ) (id : ProposalId) : Prop where
  asked : ∃ action params timeout, t.input = .propagate caller id action params timeout
  taken : (t.before.propagation? id).isSome = true
  same : t.after = t.before

/-- Whether turn `t` gives up a propagation that turn `s` has asked for, of which the turns `run` have
come since, as the bus has not taken its message. -/
structure GivesUp (s : Turn κ) (run : List (Turn κ)) (t : Turn κ) (caller : κ) (id : ProposalId) (f : TransportFault) :
    Prop where
  asked : ∃ action params timeout, s.Sends caller id action params timeout
  failed : t.input = .posted (.propagation id) (.error f)
  lasts : ∀ u ∈ run, (u.before.propagation? id).isSome = true
  /-- So the sender's own application has not been set about. -/
  unsent : ∀ u ∈ run, ¬u.Posts id
  drops : t.after = t.before.dropPropagation id

/-- What a turn tells of propagations, after the turns of the past. -/
structure Delivers (past : List (Turn κ)) (t : Turn κ) : Prop where
  reported : ∀ caller report, .propagated caller (.ok report) ∈ t.outputs →
    ∃ before s run action params ok, past ++ [t] = before ++ s :: run ∧
      Reported s run t caller action params ok report
  /-- A propagation that is refused leaves the engine as it is, one that is given up is taken off, and
  neither does anything else. -/
  refused : ∀ caller f, .propagated caller (.error f) ∈ t.outputs → t.outputs = [.propagated caller (.error f)] ∧
    ((∃ id, f = .idCollision id ∧ t.Collides caller id) ∨
      ∃ before s run id fault, f = .transport fault ∧ past ++ [t] = before ++ s :: run ∧
        GivesUp s run t caller id fault)
  /-- A propagation that is not refused is under way. -/
  opened : ∀ caller id action params timeout, t.input = .propagate caller id action params timeout →
    .propagated caller (.error (.idCollision id)) ∈ t.outputs ∨ t.Sends caller id action params timeout ∧
      ∃ p, t.after.propagation? id = some p ∧ p.caller = caller ∧ p.deadline = t.surroundings.now + timeout
  /-- A turn that reports nothing records nothing of the peers. -/
  unreported : (∀ caller report, .propagated caller (.ok report) ∉ t.outputs) → t.after.tracker = t.before.tracker

section Delivers
variable {past : List (Turn κ)} {t : Turn κ} {caller : κ} {report : PropagationReport}
  {told : List (κ × Except Fault PropagationReport)} {k : Collection κ}

theorem Collection.tracker_close {k : Collection κ} {now : Nat} {p : Propagation κ} :
    (k.close now p).tracker = if p.settled now then p.track k.tracker else k.tracker := by
  unfold close
  split <;> rfl

/-- What is reported in a turn is a propagation that is traced. -/
theorem Gathering.gathers (h : Gathering t.before t.surroundings t.input told k)
    (traced : ∀ id, Traced past t.before.collection id) (mem : (caller, .ok report) ∈ told) :
    ∃ before s run p, past ++ [t] = before ++ s :: run ∧ Gathers s run p [] ∧ p.settled t.surroundings.now = true ∧
      caller = p.caller ∧ report = p.report ∧ k.tracker = p.track t.before.tracker := by
  obtain ⟨e, c, i⟩ := t
  cases h with
  | idle | refused | offered | opened | abandoned | handed => simp at mem
  | begun p ok found waits known =>
    obtain ⟨settled, who, what⟩ := mem_told?.mp mem
    obtain ⟨before, s, run, split, -, gathers⟩ := gathers_begun (c := c) traced found waits known
    refine ⟨before, s, run, _, split, gathers, settled, who, Except.ok.inj what, ?_⟩
    rw [Collection.tracker_close, if_pos settled]
    rfl
  | moved p moved =>
    obtain ⟨settled, who, what⟩ := mem_told?.mp mem
    obtain ⟨-, -, before, s, run, split, gathers⟩ := gathers_of_collected (t := ⟨e, c, i⟩) traced moved
    refine ⟨before, s, run, p, split, gathers, settled, who, Except.ok.inj what, ?_⟩
    rw [Collection.tracker_close, if_pos settled]
    rfl

theorem Turn.opened {id : ProposalId} {action : String} {params : Json} {timeout : Nat}
    (asked : t.input = .propagate caller id action params timeout) :
    .propagated caller (.error (.idCollision id)) ∈ t.outputs ∨ t.Sends caller id action params timeout ∧
      ∃ p, t.after.propagation? id = some p ∧ p.caller = caller ∧ p.deadline = t.surroundings.now + timeout := by
  obtain ⟨e, c, i⟩ := t
  obtain rfl : i = .propagate caller id action params timeout := asked
  obtain ⟨-, same⟩ | ⟨free, same⟩ := e.propagate_cases c caller id action params timeout
  · left
    rw [Turn.outputs, step, same]
    exact List.mem_singleton_self _
  · let p := e.sending c caller id action params timeout
    have found : (e.collection.start p).find? id = some p := Collection.find?_start_self (p := p) free
    refine .inr ⟨⟨rfl, free, congrArg Prod.fst same, congrArg Prod.snd same⟩, p, ?_, rfl, rfl⟩
    rw [Turn.after, step, same]
    exact found

theorem Gathering.unreported (h : Gathering t.before t.surroundings t.input told k)
    (silent : ∀ caller report, (caller, .ok report) ∉ told) : k.tracker = t.before.tracker := by
  obtain ⟨e, c, i⟩ := t
  have going (p : Propagation κ) (silent : ∀ caller report, (caller, .ok report) ∉ told? c.now p) :
      ¬p.settled c.now = true := fun settled => silent _ _ (mem_told?.mpr ⟨settled, rfl, rfl⟩)
  cases h with
  | idle | refused | offered | opened | abandoned | handed => rfl
  | begun | moved =>
    rw [Collection.tracker_close, if_neg (going _ silent)]
    rfl

theorem History.delivers {self : AgentId} {settings : ConsensusSettings} {fallback : Bool}
    (h : History (create self settings fallback) past t.before) : Delivers past t := by
  have gathering := gathering_step h.kept.tickets t.surroundings t.input
  refine ⟨fun caller report told => ?_, fun caller f told => ?_, fun caller id action params timeout asked => ?_,
    fun silent => ?_⟩
  · obtain ⟨before, s, run, p, split, gathers, settled, rfl, rfl, tracked⟩ :=
      gathering.gathers h.traced (mem_deliveries.mpr told)
    obtain ⟨ok, reported⟩ := gathers.reported settled tracked
    exact ⟨before, s, run, p.action, p.params, ok, split, reported⟩
  · obtain ⟨id, action, params, timeout, asked, taken, why, same⟩ | ⟨p, fault, failed, why, rfl, found, waits, same⟩ :=
      gathering.declined (mem_deliveries.mpr told)
    · exact ⟨congrArg Prod.snd same, .inl ⟨id, why, ⟨action, params, timeout, asked⟩, taken, congrArg Prod.fst same⟩⟩
    · obtain ⟨before, s, run, rfl, -, gathers⟩ := gathers_of_posting h.traced found waits
      obtain ⟨timeout, sends, -⟩ := gathers.asked
      refine ⟨congrArg Prod.snd same, .inr ⟨before, s, run ++ [t], p.id, fault, why, by simp, ?_⟩⟩
      refine ⟨⟨p.action, p.params, timeout, sends⟩, failed, ?_, ?_, congrArg Prod.fst same⟩
      · exact List.forall_mem_append.mpr ⟨gathers.lasts, List.forall_mem_singleton.mpr (by rw [found]; rfl)⟩
      · have silent := (waits ▸ gathers.part).silent
        exact List.forall_mem_append.mpr ⟨silent, List.forall_mem_singleton.mpr (by simp [Turn.Posts, failed])⟩
  · exact Turn.opened asked
  · exact gathering.unreported fun caller report told => silent caller report (mem_deliveries.mp told)

end Delivers

/-! ## Reports in time -/

section InTime
variable {e : Engine κ} {c : Surroundings} {i : Input κ} {id : ProposalId} {p q : Propagation κ}

/-- A propagation that has been moved on is reported or stays as far as it was moved. -/
theorem told_or_kept {k : Collection κ} {s : Step κ} (told : deliveries s.2 = told? c.now p)
    (kept : s.1.collection = k.close c.now p) (held : k.find? p.id = some q) :
    .propagated p.caller (.ok p.report) ∈ s.2 ∨ s.1.propagation? p.id = some p := by
  by_cases settled : p.settled c.now = true
  · exact .inl (mem_deliveries.mp (told ▸ mem_told?.mpr ⟨settled, rfl, rfl⟩))
  · have found := Collection.find?_close_self held c.now
    rw [← kept, if_neg settled] at found
    exact .inr found

/-- Reads come to the one that reports a propagation that is out of time. -/
theorem reading_in_time (found : e.propagation? id = some p) (over_ : p.own.isSome = true) (late : p.deadline ≤ c.now) :
    ∃ more e', History e more e' ∧ (∀ u ∈ more, u.surroundings = c ∧ u.input = .readAck id) ∧
      ∃ u ∈ more, ∃ report, .propagated p.caller (.ok report) ∈ u.outputs := by
  -- each read that does not come to the report takes an acknowledgement out of the inbox
  generalize waiting : p.inbox = inbox
  induction inbox generalizing e p with
  | nil =>
    have settled : p.settled c.now = true := by simp [Propagation.settled, over_, waiting, late]
    have told : (p.caller, .ok p.report) ∈ deliveries (e.step c (.readAck id)).2 := by
      simp only [step, readAck, found, if_pos over_, deliveries_closePropagation]
      rw [Propagation.read?, waiting, Option.getD_none]
      exact mem_told?.mpr ⟨settled, rfl, rfl⟩
    exact ⟨_, _, .step .start c (.readAck id), by simp, ⟨e, c, .readAck id⟩, by simp, _, mem_deliveries.mp told⟩
  | cons a rest ih =>
    let next := ({ p with inbox := rest } : Propagation κ).note a
    obtain rfl := id_of_propagation? found
    have read : p.read?.getD p = next := by rw [Propagation.read?, waiting, Option.getD_some]
    obtain ⟨plan, progress⟩ := p.plan_next
    rw [read] at plan progress
    have own : next.own = p.own := congrArg Progress.own progress
    have eq : e.step c (.readAck p.id) = e.closePropagation c next := by
      simp only [step, readAck, found, if_pos over_, read]
    have first : History e [⟨e, c, .readAck p.id⟩] (e.step c (.readAck p.id)).1 := .step .start c _
    have same : next.id = p.id := Propagation.id_of_plan plan
    have caller : next.caller = p.caller := congrArg Prod.fst plan
    have held : e.collection.find? next.id = some p := by rw [same]; exact found
    have told := e.deliveries_closePropagation c next
    have kept := e.collection_closePropagation c next
    obtain told | kept := told_or_kept told kept held
    · rw [← eq, caller] at told
      exact ⟨_, _, first, by simp, ⟨e, c, .readAck p.id⟩, by simp, next.report, told⟩
    · rw [← eq, same] at kept
      have late' : next.deadline ≤ c.now := (congrArg (·.2.2.2.2.2) plan : next.deadline = p.deadline) ▸ late
      obtain ⟨more, e', past, reads, u, hu, told⟩ := ih kept (own.symm ▸ over_) late' (Propagation.inbox_note _ a)
      exact ⟨_, e', first.append past, by simpa using reads, u, List.mem_cons_of_mem _ hu, caller ▸ told⟩

/-- The end of its own application reports a propagation, or leaves it to be read. -/
theorem Gathering.of_collected {told : List (κ × Except Fault PropagationReport)} {k : Collection κ}
    (h : Gathering e c i told k) (moved : e.collection.collected? i = some p) :
    told = told? c.now p ∧ k = (e.collection.release i.ticket?).close c.now p := by
  cases h with
  | idle still =>
    rw [still] at moved
    cases moved
  | refused | offered | opened | abandoned | handed | begun => cases moved
  | moved p' moved' =>
    obtain rfl := Option.some.inj (moved'.symm.trans moved)
    exact ⟨rfl, rfl⟩

/-- Whether an input reads an acknowledgement of a propagation, ends an application in a way, or tells
in another what has become of the message. -/
def Input.Serves (id : ProposalId) (ended : Except ExecutionFault Unit) (posted : Except TransportFault Unit)
    (i : Input κ) : Prop :=
  i = .readAck id ∨ (∃ ticket, i = .executed ticket ended) ∨ i = .posted (.propagation id) posted

/-- Whether turns that serve a propagation in some surroundings come to tell its caller. -/
structure Answering (e : Engine κ) (c : Surroundings) (p : Propagation κ) (ended : Except ExecutionFault Unit)
    (posted : Except TransportFault Unit) (more : List (Turn κ)) (e' : Engine κ) : Prop where
  past : History e more e'
  inputs : ∀ u ∈ more, u.surroundings = c ∧ u.input.Serves p.id ended posted
  /-- It is told a report, unless its message has been with the bus and the bus has failed it. -/
  told : ∃ u ∈ more, (∃ report, .propagated p.caller (.ok report) ∈ u.outputs) ∨
    p.progress = .posting ∧ ∃ f, posted = .error f ∧ .propagated p.caller (.error (.transport f)) ∈ u.outputs

section Answering
variable {e' : Engine κ} {more : List (Turn κ)} {ended : Except ExecutionFault Unit}
  {posted : Except TransportFault Unit} {p' : Propagation κ}

/-- A step may come before. -/
theorem Answering.cons (h : Answering (e.step c i).1 c p' ended posted more e') (plan : p'.plan = p.plan)
    (sent : p'.progress ≠ .posting) (one : i.Serves p.id ended posted) :
    Answering e c p ended posted (⟨e, c, i⟩ :: more) e' := by
  have first : History e [⟨e, c, i⟩] (e.step c i).1 := .step .start c i
  refine ⟨first.append h.past, fun u hu => ?_, ?_⟩
  · rcases List.mem_cons.mp hu with rfl | later
    · exact ⟨rfl, one⟩
    · exact Propagation.id_of_plan plan ▸ h.inputs u later
  · have caller : p'.caller = p.caller := congrArg Prod.fst plan
    obtain ⟨u, hu, report | ⟨waits, -⟩⟩ := h.told
    · exact ⟨u, List.mem_cons_of_mem _ hu, .inl (caller ▸ report)⟩
    · exact (sent waits).elim

theorem Answering.of_told (one : i.Serves p.id ended posted)
    (told : (∃ report, .propagated p.caller (.ok report) ∈ (e.step c i).2) ∨
      p.progress = .posting ∧ ∃ f, posted = .error f ∧ .propagated p.caller (.error (.transport f)) ∈ (e.step c i).2) :
    Answering e c p ended posted [⟨e, c, i⟩] (e.step c i).1 :=
  ⟨.step .start c i, by simpa using one, _, List.mem_singleton_self _, told⟩

theorem answering_reading (found : e.propagation? p.id = some p) (over_ : p.own.isSome = true)
    (late : p.deadline ≤ c.now) (ended : Except ExecutionFault Unit) (posted : Except TransportFault Unit) :
    ∃ more e', Answering e c p ended posted more e' := by
  obtain ⟨more, e', past, reads, u, hu, told⟩ := reading_in_time found over_ late
  exact ⟨more, e', past, fun u hu => ⟨(reads u hu).1, .inl (reads u hu).2⟩, u, hu, .inl told⟩

/-- A propagation that a step has moved on is answered by the step or by the reads that follow. -/
theorem answering_moved {k : Collection κ} {q : Propagation κ} (told : deliveries (e.step c i).2 = told? c.now p')
    (kept : (e.step c i).1.collection = k.close c.now p') (held : k.find? p'.id = some q) (plan : p'.plan = p.plan)
    (over_ : p'.own.isSome = true) (late : p.deadline ≤ c.now) (one : i.Serves p.id ended posted) :
    ∃ more e', Answering e c p ended posted more e' := by
  have caller : p'.caller = p.caller := congrArg Prod.fst plan
  have deadline : p'.deadline = p.deadline := congrArg (·.2.2.2.2.2) plan
  have sent : p'.progress ≠ .posting := by
    intro waits
    simp [Propagation.own, waits, Progress.own] at over_
  obtain told | kept := told_or_kept told kept held
  · exact ⟨_, _, .of_told one (.inl ⟨_, caller ▸ told⟩)⟩
  · obtain ⟨more, e', rest⟩ := answering_reading kept over_ (deadline ▸ late) ended posted
    exact ⟨_, e', rest.cons plan sent one⟩

variable {self : AgentId} {settings : ConsensusSettings} {fallback : Bool} {turns : List (Turn κ)}

theorem History.answering_working (h : History (create self settings fallback) turns e)
    (found : e.propagation? p.id = some p) (works : p.progress = .working) (late : p.deadline ≤ c.now)
    (ended : Except ExecutionFault Unit) (posted : Except TransportFault Unit) :
    ∃ more e', Answering e c p ended posted more e' := by
  obtain ⟨before, s, run, -, gathers⟩ := (h.traced p.id).held found
  obtain ⟨ticket, owed⟩ := (works ▸ gathers.part).owed_of_working
  have tickets : (e.collection.applying.map (·.ticket)).Nodup := h.kept.tickets.sublist (List.filter_sublist.map _)
  obtain ⟨q, held, moved⟩ := (h.traced p.id).collected tickets (owed ▸ List.mem_singleton_self ticket) ended
  obtain rfl := Option.some.inj (held.symm.trans found)
  obtain ⟨told, closed⟩ := (gathering_step h.kept.tickets c (.executed ticket ended)).of_collected moved
  exact answering_moved told closed held rfl rfl late (.inr (.inl ⟨ticket, rfl⟩))

/-- Once its message is out, a propagation is answered at once, or sets about its own application. -/
theorem History.answering_posted (h : History (create self settings fallback) turns e)
    (found : e.propagation? p.id = some p) (waits : p.progress = .posting) (late : p.deadline ≤ c.now)
    (ended : Except ExecutionFault Unit)
    (one : (Input.posted (.propagation p.id) (.ok ()) : Input κ).Serves p.id ended (.ok ())) :
    ∃ more e', Answering e c p ended (.ok ()) more e' := by
  have next := h.step c (.posted (.propagation p.id) (.ok ()))
  have gathering := gathering_step h.kept.tickets c (.posted (.propagation p.id) (.ok ()))
  generalize told : deliveries (e.step c (.posted (.propagation p.id) (.ok ()))).2 = delivered at gathering
  generalize kept : (e.step c (.posted (.propagation p.id) (.ok ()))).1.collection = k at gathering
  generalize mine : p.id = id at gathering
  cases gathering with
  | idle still unasked stray settled => exact (settled id _ p rfl (mine ▸ found) waits).elim
  | handed q held =>
    obtain rfl := Option.some.inj (held.symm.trans (mine ▸ found))
    have sent : (e.step c (.posted (.propagation q.id) (.ok ()))).1.propagation? q.sent.id = some q.sent := by
      have replaced := Collection.find?_set_self (k := e.collection) (p := q.sent) found
      exact (congrArg (fun k => Collection.find? k q.id) kept).trans replaced
    obtain ⟨more, e', rest⟩ := next.answering_working sent rfl late ended (.ok ())
    exact ⟨_, e', rest.cons rfl (by simp [Propagation.sent]) one⟩
  | begun q ok held =>
    obtain rfl := Option.some.inj (held.symm.trans (mine ▸ found))
    have replaced := Collection.find?_set_self (k := e.collection) (p := q.sent) found
    exact answering_moved told kept replaced rfl rfl late one
  | moved q moved => cases moved

/-- A propagation that is out of time is answered once the bus has told what has become of its message,
its own application has ended and what waits in its inbox is read. -/
theorem History.answered_late (h : History (create self settings fallback) turns e)
    (found : e.propagation? p.id = some p) (late : p.deadline ≤ c.now) (ended : Except ExecutionFault Unit)
    (posted : Except TransportFault Unit) : ∃ more e', Answering e c p ended posted more e' := by
  cases progress : p.progress with
  | reading ok => exact answering_reading found (by simp [Propagation.own, progress, Progress.own]) late ended posted
  | working => exact h.answering_working found progress late ended posted
  | posting =>
    have one : (Input.posted (.propagation p.id) posted : Input κ).Serves p.id ended posted := .inr (.inr rfl)
    cases posted with
    | error f =>
      have told : (e.step c (.posted (.propagation p.id) (.error f))).2 =
          [.propagated p.caller (.error (.transport f))] := by
        change (e.propagationPosted c p.id (.error f)).2 = _
        simp only [propagationPosted, found, if_pos progress, declinePropagation]
      exact ⟨_, _, .of_told one (.inr ⟨progress, f, rfl, told ▸ List.mem_singleton_self _⟩)⟩
    | ok => exact h.answering_posted found progress late ended one

end Answering

end InTime

/-- Every report of a propagation is that of the peers that were alive when it was asked for, by the
acknowledgements that have come for it and by its own application, and is what is recorded of them. A
propagation that is refused or given up applies nothing and records nothing, and one that is under way
is answered in time. -/
theorem propagation_reported {self : AgentId} {settings : ConsensusSettings} {fallback : Bool} {turns : List (Turn κ)}
    {e : Engine κ} (h : History (create self settings fallback) turns e) :
    (∀ past t later, turns = past ++ t :: later → Delivers past t) ∧
      ∀ p c ended posted, e.propagation? p.id = some p → p.deadline ≤ c.now →
        ∃ more e', Answering e c p ended posted more e' :=
  ⟨fun _ _ _ split => (h.until split).delivers, fun _ _ ended posted found late =>
    h.answered_late found late ended posted⟩

/-- What is told of a propagation, as whole numbers. -/
def figures (outputs : List (Output κ)) : List (κ × Option (Nat × Nat × List AgentId)) :=
  (deliveries outputs).map fun d => (d.1, d.2.toOption.map fun r => (r.expected, r.acknowledged, r.missing))

theorem mem_of_figures {outputs : List (Output κ)} {caller : κ} {expected acknowledged : Nat} {missing : List AgentId}
    (h : (caller, some (expected, acknowledged, missing)) ∈ figures outputs) :
    ∃ report, .propagated caller (.ok report) ∈ outputs ∧ report.expected = expected ∧
      report.acknowledged = acknowledged ∧ report.missing = missing := by
  obtain ⟨⟨caller, result⟩, told, same⟩ := List.mem_map.mp h
  cases result with
  | error f => cases same
  | ok report =>
    cases same
    exact ⟨report, mem_deliveries.mp told, rfl, rfl, rfl⟩

/-- A leader with two peers. -/
def amongThree (now : Nat) : Surroundings :=
  { leadership := .fixed "A" (some "A") 1, alive := ["A", "B", "C"], now }

def word (agent : AgentId) (applied : Bool) : Input Nat := .ack { id := petition.id, agent, applied }

/-- Acknowledgements that come twice, from a stranger or of a failure do not count. -/
theorem propagation_reported_halfway : ∃ past t e, History (create "A" {} true : Engine Nat) (past ++ [t]) e ∧
    ∃ report, .propagated 0 (.ok report) ∈ t.outputs ∧
      (report.expected = 3 ∧ report.acknowledged = 2 ∧ report.missing = ["C"]) ∧ Delivers past t := by
  have idle : History (create "A" {} true : Engine Nat) [] _ := .start
  have sent := idle.step (amongThree 0) (.propagate 0 petition.id "noop" .null 1000)
  -- an acknowledgement that comes while the message is still with the bus waits
  have early := sent.step (amongThree 0) (word "B" true)
  have posted := early.step (amongThree 0) (.posted (.propagation petition.id) (.ok ()))
  have heard := ((posted.step (amongThree 0) (word "D" true)).step (amongThree 0) (word "B" true)).step (amongThree 0)
    (word "C" false)
  have read := (((heard.step (amongThree 0) (.executed 0 (.ok ()))).step (amongThree 0) (.readAck petition.id)).step
    (amongThree 0) (.readAck petition.id)).step (amongThree 0) (.readAck petition.id)
  have reported := read.step (amongThree 1000) (.readAck petition.id)
  refine ⟨_, _, _, reported, ?_⟩
  exact (mem_of_figures (by decide +kernel)).imp fun report ⟨told, counts⟩ =>
    ⟨told, counts, (propagation_reported reported).1 _ _ [] rfl⟩

end Engine

end FleetCoordination
