import FleetCoordination.Json.Record
/-!
# Fields of records

What a reader makes of named fields. Only the values given for each name count, so the
order of the fields does not matter.
-/
namespace FleetCoordination.Reading
variable {δ α β : Type} {name : String} {fields arranged : List (String × δ)} {v : δ} {read : δ → Option α}

/-! ## Values of a name -/

theorem named_perm (h : arranged.Perm fields) : (named name arranged).Perm (named name fields) := by
  induction h with
  | nil => rfl
  | cons e _ ih =>
    unfold named
    split
    · exact ih.cons _
    · exact ih
  | swap e f _ =>
    simp only [named]
    split
    · split
      · exact .swap ..
      · rfl
    · rfl
  | trans _ _ ih ih' => exact ih.trans ih'

theorem named_of_perm (h : arranged.Perm fields) (given : named name fields = [v]) : named name arranged = [v] :=
  List.perm_singleton.mp (given ▸ named_perm h)

theorem not_named_of_perm (h : arranged.Perm fields) (missing : named name fields = []) : named name arranged = [] :=
  List.perm_nil.mp (missing ▸ named_perm h)

/-! ## Readers -/

/-- The reader takes `a` from the named fields. -/
def Gives (fields : List (String × δ)) (r : Reading δ α) (a : α) : Prop := r (.named fields) = some (a, .named fields)

namespace Gives

theorem pure (a : α) : Gives fields (Pure.pure a) a := rfl

theorem bind {r : Reading δ α} {f : α → Reading δ β} {a : α} {b : β} (h : Gives fields r a) (g : Gives fields (f a) b) :
    Gives fields (r >>= f) b := by
  unfold Gives at h g ⊢
  simp [Bind.bind, StateT.bind, h, g]

theorem next_some (given : named name fields = [v]) : Gives fields (next name) (some v) := by
  simp [Gives, next, given]

theorem next_none (missing : named name fields = []) : Gives fields (next name) none := by
  simp [Gives, next, missing]

theorem known {x : Option α} {a : α} (h : x = some a) : Gives fields (liftM x : Reading δ α) a := by
  subst h
  rfl

theorem required {a : α} (given : named name fields = [v]) (known : read v = some a) :
    Gives fields (Reading.required name read) a :=
  bind (next_some given) (Gives.known known)

theorem withDefault {a fallback : α} (given : named name fields = [v]) (known : read v = some a) :
    Gives fields (Reading.withDefault name fallback read) a :=
  bind (next_some given) (Gives.known known)

theorem withDefault_missing {fallback : α} (missing : named name fields = []) :
    Gives fields (Reading.withDefault name fallback read) fallback :=
  bind (next_none missing) (.pure fallback)

theorem optional [Document δ] {a : Option α} (given : named name fields = [v]) (known : nullable read v = some a) :
    Gives fields (Reading.optional name read) a :=
  bind (next_some given) (Gives.known known)

theorem run [Document δ] {r : Reading δ α} {a : α} (h : Gives fields r a)
    (record : Document.fields? v = some (.named fields)) : Reading.run r v = some a := by
  unfold Gives at h
  simp [Reading.run, StateT.run, record, h]

end Gives

/-! ## Values -/

theorem nullable_ofOption {read : Json → Option α} {write : α → Json} (known : ∀ x, read (write x) = some x)
    (shown : ∀ x, (write x).isNull = false) (a : Option α) : nullable read (Json.ofOption write a) = some a := by
  cases a with
  | none => rfl
  | some x => simp [nullable, Document.isNull, Json.ofOption, known, shown]

theorem list?_map {read : Json → Option α} {write : α → Json} (known : ∀ x, read (write x) = some x) (xs : List α) :
    list? read (.array (xs.map write)) = some xs := by
  change (xs.map write).mapM read = some xs
  induction xs with
  | nil => rfl
  | cons x xs ih => simp [List.mapM_cons, known, ih]

end FleetCoordination.Reading
