import FleetCoordination.Decision
import FleetCoordination.Message
import FleetCoordination.Policy
import FleetCoordination.Proofs.Record
import FleetCoordination.Proofs.Timestamp
import FleetCoordination.Proofs.Uuid
import Mathlib.Data.Set.Function
/-!
# Messages, decisions and policies in JSON

What agents send is read as it was written, whatever the order of the fields.
-/
namespace FleetCoordination
open Reading

/-! ## Values -/

namespace Json

theorem word?_ofNat {n : Nat} (fits : n < Word.count 64) : (ofNat n).word? = some n := by
  simp [ofNat, word?, natBelow?, fits]

theorem lookup_eq_head? (name : String) (fields : List (String × Json)) :
    lookup name fields = (named name fields).head? := by
  induction fields with
  | nil => rfl
  | cons e fields ih =>
    unfold lookup named
    split
    · rfl
    · exact ih

/-- The same fields in any order. -/
def Rearranges (j k : Json) : Prop :=
  ∃ fields arranged, j = .object fields ∧ k = .object arranged ∧ arranged.Perm fields

theorem Rearranges.refl (fields : List (String × Json)) : Rearranges (.object fields) (.object fields) :=
  ⟨fields, fields, rfl, rfl, .refl _⟩

end Json

theorem Scope.ofJson?_toJson (s : Scope) : ofJson? s.toJson = some s := by cases s <;> rfl

theorem Priority.ofJson?_text (p : Priority) : ofJson? (.string p.text) = some p := by cases p <;> rfl

theorem PolicyScope.ofJson?_text (s : PolicyScope) : ofJson? (.string s.text) = some s := by cases s <;> rfl

/-! ## Messages -/

namespace Message

/-- Counters fit in a word, times are plain and floats are finite. -/
def Plain : Message → Prop
  | voteRequest m => m.term < Word.count 64 ∧ m.uptime < Word.count 64
  | electionVote m => m.term < Word.count 64
  | heartbeat m => m.term < Word.count 64 ∧ m.time.Plain
  | proposalRequest m => m.timeoutSeconds.isFinite = true
  | proposalVote _ => True
  | approval m => m.term < Word.count 64
  | propagate m => m.term < Word.count 64
  | ack _ => True

theorem gives_reading {m : Message} (h : m.Plain) {arranged : List (String × Json)}
    (perm : arranged.Perm (("type", .string m.tag) :: m.body)) : Gives arranged (reading m.tag) m := by
  have given {name : String} {v : Json} := @named_of_perm _ name _ _ v perm
  cases m with
  | voteRequest m =>
    exact .bind (.required (given rfl) (Json.word?_ofNat h.1)) <| .bind (.required (given rfl) rfl) <|
      .bind (.required (given rfl) (Json.word?_ofNat h.2)) <| .pure _
  | electionVote m =>
    exact .bind (.required (given rfl) (Json.word?_ofNat h)) <| .bind (.required (given rfl) rfl) <| .pure _
  | heartbeat m =>
    exact .bind (.required (given rfl) (Json.word?_ofNat h.1)) <| .bind (.required (given rfl) rfl) <|
      .bind (.required (given rfl) (Timestamp.ofJson?_toJson h.2)) <| .pure _
  | proposalRequest m =>
    exact .bind (.required (given rfl) m.id.ofJson?_toJson) <| .bind (.required (given rfl) rfl) <|
      .bind (.withDefault (given rfl) rfl) <| .bind (.required (given rfl) rfl) <| .pure _
  | proposalVote m =>
    -- A reason is left out when there is none.
    obtain ⟨id, voter, granted, _ | reason⟩ := m
    · exact .bind (.required (given rfl) id.ofJson?_toJson) <| .bind (.required (given rfl) rfl) <|
        .bind (.required (given rfl) rfl) <| .bind (.withDefault_missing (not_named_of_perm perm rfl)) <| .pure _
    · exact .bind (.required (given rfl) id.ofJson?_toJson) <| .bind (.required (given rfl) rfl) <|
        .bind (.required (given rfl) rfl) <| .bind (.withDefault (given rfl) rfl) <| .pure _
  | approval m =>
    exact .bind (.required (given rfl) m.id.ofJson?_toJson) <| .bind (.required (given rfl) rfl) <|
      .bind (.withDefault (given rfl) rfl) <| .bind (.withDefault (given rfl) rfl) <|
      .bind (.withDefault (given rfl) (Json.word?_ofNat h)) <| .pure _
  | propagate m =>
    exact .bind (.required (given rfl) m.id.ofJson?_toJson) <| .bind (.required (given rfl) rfl) <|
      .bind (.withDefault (given rfl) rfl) <| .bind (.withDefault (given rfl) (Json.word?_ofNat h)) <| .pure _
  | ack m =>
    exact .bind (.required (given rfl) m.id.ofJson?_toJson) <| .bind (.required (given rfl) rfl) <|
      .bind (.required (given rfl) rfl) <| .pure _

theorem named_type (m : Message) : named "type" (("type", .string m.tag) :: m.body) = [.string m.tag] := by
  cases m with
  | proposalVote m =>
    obtain ⟨id, voter, granted, _ | reason⟩ := m <;> rfl
  | _ => rfl

theorem ofJson?_of_rearranges {m : Message} (h : m.Plain) {j : Json} (same : m.toJson.Rearranges j) :
    ofJson? j = some m := by
  obtain ⟨fields, arranged, written, rfl, perm⟩ := same
  cases written
  have tag : Json.lookup "type" arranged = some (.string m.tag) := by
    rw [Json.lookup_eq_head?, named_of_perm perm m.named_type, List.head?_cons]
  simp only [ofJson?, tag]
  exact (gives_reading h perm).run rfl

end Message

/-! ## Envelopes -/

namespace Envelope

/-- The time it was sent and its message are plain. -/
structure Plain (e : Envelope) : Prop where
  sent : e.sent.Plain
  message : e.message.Plain

/-- The envelope around a message in JSON. -/
def around (e : Envelope) (message : Json) : Json :=
  .object ([("topic", .string e.topic), ("from", .string e.sender)] ++
    (match e.recipient with
      | some r => [("to", .string r)]
      | none => []) ++
    [("sent_at", e.sent.toJson), ("message", message)])

theorem ofJson?_of_rearranges {e : Envelope} (h : e.Plain) {message j : Json}
    (inner : e.message.toJson.Rearranges message) (outer : (e.around message).Rearranges j) : ofJson? j = some e := by
  have known : Message.ofJson? message = some e.message := Message.ofJson?_of_rearranges h.message inner
  have sent := Timestamp.ofJson?_toJson h.sent
  obtain ⟨topic, sender, recipient, time, body⟩ := e
  obtain ⟨fields, arranged, written, rfl, perm⟩ := outer
  have given {name : String} {v : Json} := @named_of_perm _ name _ _ v perm
  cases recipient with
  | none =>
    cases written
    exact Gives.run (.bind (.required (given rfl) rfl) <| .bind (.required (given rfl) rfl) <|
      .bind (.withDefault_missing (not_named_of_perm perm rfl)) <| .bind (.required (given rfl) sent) <|
      .bind (.required (given rfl) known) <| .pure _) rfl
  | some recipient =>
    cases written
    exact Gives.run (.bind (.required (given rfl) rfl) <| .bind (.required (given rfl) rfl) <|
      .bind (.withDefault (given rfl) rfl) <| .bind (.required (given rfl) sent) <|
      .bind (.required (given rfl) known) <| .pure _) rfl

end Envelope

/-! ## Decisions -/

namespace Decision

/-- Its confidence is finite and its time plain. -/
structure Plain (d : Decision) : Prop where
  confidence : d.confidence.isFinite = true
  created : d.created.Plain

theorem ofJson?_of_rearranges {d : Decision} (h : d.Plain) {j : Json} (same : d.toJson.Rearranges j) :
    ofJson? j = some d := by
  obtain ⟨fields, arranged, written, rfl, perm⟩ := same
  cases written
  have given {name : String} {v : Json} := @named_of_perm _ name _ _ v perm
  exact Gives.run (.bind (.required (given rfl) d.id.ofJson?_toJson) <| .bind (.required (given rfl) rfl) <|
    .bind (.required (given rfl) d.scope.ofJson?_toJson) <| .bind (.withDefault (given rfl) rfl) <|
    .bind (.required (given rfl) rfl) <| .bind (.withDefault (given rfl) rfl) <|
    .bind (.required (given rfl) (Timestamp.ofJson?_toJson h.created)) <| .pure _) rfl

end Decision

/-! ## Policies -/

namespace Policy

/-- Its score lies in the unit interval and its time is plain. -/
structure Plain (p : Policy) : Prop where
  score : Scalar.inUnit p.score = true
  time : p.time.Plain

/-- A score outside the unit interval is refused by name. -/
theorem ofJson_of_rearranges {p : Policy} (time : p.time.Plain) {j : Json} (same : p.toJson.Rearranges j) :
    ofJson j = if Scalar.inUnit p.score then .ok p else .error (.scoreOutOfRange p.score) := by
  obtain ⟨fields, arranged, written, rfl, perm⟩ := same
  cases written
  have given {name : String} {v : Json} := @named_of_perm _ name _ _ v perm
  have read : read? (.object arranged) = some p :=
    Gives.run (.bind (.required (given rfl) rfl) <| .bind (.withDefault (given rfl) rfl) <|
      .bind (.required (given rfl) p.priority.ofJson?_text) <| .bind (.required (given rfl) p.scope.ofJson?_text) <|
      .bind (.required (given rfl) rfl) <| .bind (.required (given rfl) rfl) <|
      .bind (.required (given rfl) (Timestamp.ofJson?_toJson time)) <| .pure _) rfl
  simp only [ofJson, read]

end Policy

/-! ## Round trips -/

theorem injOn_of_read {α β : Type} {write : α → Json} {read : Json → β} {given : α → β} {plain : Set α}
    (distinct : Function.Injective given) (h : ∀ x ∈ plain, read (write x) = given x) : Set.InjOn write plain :=
  ((Set.EqOn.injOn_iff h).mpr distinct.injOn).of_comp

/-- What is sent is read as it was written, and no two values are written alike. -/
theorem wire_round_trip :
    (∀ m : Message, m.Plain → Message.ofJson? m.toJson = some m) ∧
    (∀ e : Envelope, e.Plain → Envelope.ofJson? e.toJson = some e) ∧
    (∀ d : Decision, d.Plain → Decision.ofJson? d.toJson = some d) ∧
    (∀ p : Policy, p.Plain → Policy.ofJson p.toJson = .ok p) ∧
    Set.InjOn Message.toJson {m | m.Plain} ∧ Set.InjOn Envelope.toJson {e | e.Plain} ∧
    Set.InjOn Decision.toJson {d | d.Plain} ∧ Set.InjOn Policy.toJson {p | p.Plain} := by
  have messages : ∀ m : Message, m.Plain → Message.ofJson? m.toJson = some m :=
    fun _ plain => Message.ofJson?_of_rearranges plain (.refl _)
  have envelopes : ∀ e : Envelope, e.Plain → Envelope.ofJson? e.toJson = some e :=
    fun _ plain => Envelope.ofJson?_of_rearranges plain (.refl _) (.refl _)
  have decisions : ∀ d : Decision, d.Plain → Decision.ofJson? d.toJson = some d :=
    fun _ plain => Decision.ofJson?_of_rearranges plain (.refl _)
  have policies : ∀ p : Policy, p.Plain → Policy.ofJson p.toJson = .ok p :=
    fun _ plain => (Policy.ofJson_of_rearranges plain.time (.refl _)).trans (if_pos plain.score)
  exact ⟨messages, envelopes, decisions, policies, injOn_of_read (Option.some_injective _) messages,
    injOn_of_read (Option.some_injective _) envelopes, injOn_of_read (Option.some_injective _) decisions,
    injOn_of_read (fun _ _ => Except.ok.inj) policies⟩

theorem wire_round_trip_leap_second :
    let time : Timestamp := ⟨1483228799, 1500000000⟩
    let beat := Envelope.broadcast "S1" time (.heartbeat { term := Word.last 64, leader := "S1", time })
    let decision : Decision :=
      { id := .ofNat 7, action := "load_shed", scope := .swarm, params := .object [("depth", .int 2)],
        confidence := 0.75, reasoning := "", created := time }
    let policy : Policy :=
      { action := "load_shed", parameters := .null, priority := .safety, scope := .swarm, score := 0.95,
        agent := "S1", time }
    time.text = "2016-12-31T23:59:60.500Z" ∧ Message.ofJson? beat.message.toJson = some beat.message ∧
      Envelope.ofJson? beat.toJson = some beat ∧ Decision.ofJson? decision.toJson = some decision ∧
      Policy.ofJson policy.toJson = .ok policy := by
  intro time beat decision policy
  have plain : time.Plain := ⟨by decide, by decide⟩
  have message : beat.message.Plain := ⟨Word.last_lt 64, plain⟩
  exact ⟨by decide, wire_round_trip.1 _ message, wire_round_trip.2.1 _ ⟨plain, message⟩,
    wire_round_trip.2.2.1 _ ⟨by decide, plain⟩, wire_round_trip.2.2.2.1 _ ⟨by decide, plain⟩⟩

end FleetCoordination
