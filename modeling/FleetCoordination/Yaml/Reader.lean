import FleetCoordination.Yaml
import FleetCoordination.Yaml.Token
/-!
# Reading YAML

A text that holds one document. Every reader takes the tokens it is for off the front
and gives back the others; each token costs three units of fuel at most.
-/
namespace FleetCoordination.Yaml

/-- Whether a value is missing in front of these tokens. -/
def missesBefore (ends : List Token) (ts : List Token) : Bool := ts.head?.any (· ∈ ends)

mutual

/-- Reads a node. Entries of a sequence may stand at the indentation of the mapping
around it where `loose` holds. -/
def node (loose : Bool) : Nat → List Token → Option (Yaml × List Token)
  | 0, _ => none
  | fuel + 1, ts =>
    match ts with
    | .scalar plain text :: ts => some (.scalar plain text, ts)
    | .flowSequence :: ts => (flowItems true fuel ts).map fun r => (.sequence r.1, r.2)
    | .flowMapping :: ts => (flowEntries true fuel ts).map fun r => (.mapping r.1, r.2)
    | .blockSequence :: ts => (blockItems fuel ts).map fun r => (.sequence r.1, r.2)
    | .blockMapping :: ts => (blockEntries fuel ts).map fun r => (.mapping r.1, r.2)
    | .entry :: _ => if loose then (looseItems fuel ts).map fun r => (.sequence r.1, r.2) else none
    | _ => none

/-- A node, or an empty one in front of `ends`. -/
def nodeBefore (ends : List Token) (loose : Bool) : Nat → List Token → Option (Yaml × List Token)
  | 0, _ => none
  | fuel + 1, ts => if missesBefore ends ts then some (empty, ts) else node loose fuel ts

def blockItems : Nat → List Token → Option (List Yaml × List Token)
  | 0, _ => none
  | fuel + 1, ts =>
    match ts with
    | .entry :: ts => do
      let (y, ts) ← nodeBefore [.entry, .blockEnd] false fuel ts
      let (ys, ts) ← blockItems fuel ts
      some (y :: ys, ts)
    | .blockEnd :: ts => some ([], ts)
    | _ => none

def looseItems : Nat → List Token → Option (List Yaml × List Token)
  | 0, _ => none
  | fuel + 1, ts =>
    match ts with
    | .entry :: ts => do
      let (y, ts) ← nodeBefore [.entry, .key, .value, .blockEnd] false fuel ts
      let (ys, ts) ← looseItems fuel ts
      some (y :: ys, ts)
    | ts => some ([], ts)

def blockEntries : Nat → List Token → Option (List (Yaml × Yaml) × List Token)
  | 0, _ => none
  | fuel + 1, ts =>
    match ts with
    | .key :: ts => do
      let (k, ts) ← nodeBefore [.key, .value, .blockEnd] true fuel ts
      let (v, ts) ← match ts with
        | .value :: ts => nodeBefore [.key, .value, .blockEnd] true fuel ts
        | ts => some (empty, ts)
      let (es, ts) ← blockEntries fuel ts
      some ((k, v) :: es, ts)
    | .blockEnd :: ts => some ([], ts)
    | _ => none

/-- The items of a flow sequence, each but the first behind a comma. -/
def flowItems (first : Bool) : Nat → List Token → Option (List Yaml × List Token)
  | 0, _ => none
  | fuel + 1, ts =>
    match ts with
    | .flowSequenceEnd :: ts => some ([], ts)
    | .flowEntry :: ts =>
      if first then none
      else
        match ts with
        | .flowSequenceEnd :: ts => some ([], ts)
        | ts => flowItem fuel ts
    | ts => if first then flowItem fuel ts else none

/-- One item and those behind it. A key makes it a mapping of one entry. -/
def flowItem : Nat → List Token → Option (List Yaml × List Token)
  | 0, _ => none
  | fuel + 1, ts => do
    let (y, ts) ← match ts with
      | .key :: ts => do
        let (k, ts) ← nodeBefore [.value, .flowEntry, .flowSequenceEnd] false fuel ts
        let (v, ts) ← match ts with
          | .value :: ts => nodeBefore [.flowEntry, .flowSequenceEnd] false fuel ts
          | ts => some (empty, ts)
        some (mapping [(k, v)], ts)
      | ts => node false fuel ts
    let (ys, ts) ← flowItems false fuel ts
    some (y :: ys, ts)

def flowEntries (first : Bool) : Nat → List Token → Option (List (Yaml × Yaml) × List Token)
  | 0, _ => none
  | fuel + 1, ts =>
    match ts with
    | .flowMappingEnd :: ts => some ([], ts)
    | .flowEntry :: ts =>
      if first then none
      else
        match ts with
        | .flowMappingEnd :: ts => some ([], ts)
        | ts => flowPair fuel ts
    | ts => if first then flowPair fuel ts else none

/-- One entry and those behind it. A node without a key's token has no value. -/
def flowPair : Nat → List Token → Option (List (Yaml × Yaml) × List Token)
  | 0, _ => none
  | fuel + 1, ts => do
    let (e, ts) ← match ts with
      | .key :: ts => do
        let (k, ts) ← nodeBefore [.value, .flowEntry, .flowMappingEnd] false fuel ts
        let (v, ts) ← match ts with
          | .value :: ts => nodeBefore [.flowEntry, .flowMappingEnd] false fuel ts
          | ts => some (empty, ts)
        some ((k, v), ts)
      | ts => (node false fuel ts).map fun r => ((r.1, empty), r.2)
    let (es, ts) ← flowEntries false fuel ts
    some (e :: es, ts)

end

/-- Reads the one document of a text. It may be empty only behind a mark for its start. -/
def document? (ts : List Token) : Option Yaml := do
  let fuel := 3 * ts.length + 3
  let (y, ts) ← match ts with
    | [] => none
    | [.documentStart] => some (empty, [])
    | .documentStart :: ts => nodeBefore [.documentStart, .documentEnd] false fuel ts
    | ts => node false fuel ts
  if ts.all (· = .documentEnd) then some y else none

/-- The document a text holds, if it is one and the text holds nothing else. -/
def parse? (text : String) : Option Yaml := (tokens? text).bind document?

end FleetCoordination.Yaml
