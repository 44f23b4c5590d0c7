/-!
# Reading records

A record is given by its fields, found by name or taken in order. Reading fails as a
whole and without a reason; unknown names are ignored, items left over are not.
-/
namespace FleetCoordination

inductive Fields (δ : Type)
  | named (fields : List (String × δ))
  | listed (items : List δ)

/-- A kind of document that records can be read from. -/
class Document (δ : Type) where
  isNull : δ → Bool
  text? : δ → Option String
  flag? : δ → Option Bool
  /-- A whole number below the given power of two. -/
  natural? : Nat → δ → Option Nat
  real? : δ → Option Float
  items? : δ → Option (List δ)
  entries? : δ → Option (List (String × δ))
  fields? : δ → Option (Fields δ)

abbrev Reading (δ : Type) := StateT (Fields δ) Option

namespace Reading
variable {δ α : Type}

/-- The values given for a name. -/
def named (name : String) : List (String × δ) → List δ
  | [] => []
  | (n, v) :: rest => if n = name then v :: named name rest else named name rest

/-- The value of a field, `none` when it is absent. A name given twice is a failure. -/
def next (name : String) : Reading δ (Option δ) := fun
  | .named fields =>
    match named name fields with
    | [] => some (none, .named fields)
    | [v] => some (some v, .named fields)
    | _ => none
  | .listed [] => some (none, .listed [])
  | .listed (v :: rest) => some (some v, .listed rest)

def required (name : String) (read : δ → Option α) : Reading δ α := do
  match ← next name with
  | some v => (read v : Option α)
  | none => failure

/-- A field whose absence stands for `fallback`; a null is no absence. -/
def withDefault (name : String) (fallback : α) (read : δ → Option α) : Reading δ α := do
  match ← next name with
  | some v => (read v : Option α)
  | none => pure fallback

variable [Document δ]

def nullable (read : δ → Option α) (v : δ) : Option (Option α) :=
  if Document.isNull v then some none else (read v).map some

/-- A field that may be null, and absent when fields are named. -/
def optional (name : String) (read : δ → Option α) : Reading δ (Option α) := fun
  | .listed [] => none
  | fields => (do
      match ← next name with
      | some v => (nullable read v : Option (Option α))
      | none => pure none : Reading δ (Option α)) fields

/-- An optional field that may also be left out of a list. -/
def optionalWithDefault (name : String) (read : δ → Option α) : Reading δ (Option α) :=
  withDefault name none (nullable read)

def run (r : Reading δ α) (v : δ) : Option α := do
  match ← StateT.run r (← Document.fields? v) with
  | (a, .named _) => some a
  | (a, .listed []) => some a
  | _ => none

def list? (read : δ → Option α) (v : δ) : Option (List α) := do (← Document.items? v).mapM read

end Reading

end FleetCoordination
