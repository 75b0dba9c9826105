import PortWarden.Yaml.Scanner

/-!
# From tokens to nodes

The tree of a document. Anchors and aliases are kept in the tree by a reference of a type of one's
choice: their names as they are read, and numbers once it is settled which anchor an alias means.
-/

namespace PortWarden.Yaml

/-- A node of a document. -/
inductive Node (ρ : Type) where
  /-- A scalar, with its tag if it has one. -/
  | scalar (style : ScalarStyle) (tag : Option (List Char)) (text : List Char)
  /-- A sequence. -/
  | sequence (items : List (Node ρ))
  /-- A mapping; its entries are in the order of the document, and keys may repeat. -/
  | mapping (entries : List (Node ρ × Node ρ))
  /-- A node to which an alias can refer. -/
  | anchored (reference : ρ) (node : Node ρ)
  /-- An alias of another node. -/
  | alias (reference : ρ)

/-- The node that stands where nothing is written. -/
def Node.empty {ρ : Type} : Node ρ := .scalar .plain none []

/-- What tag handles stand for. -/
abbrev TagHandles := List (List Char × List Char)

/-- The handles that need no directive. -/
def defaultHandles : TagHandles :=
  [("!".toList, "!".toList), ("!!".toList, "tag:yaml.org,2002:".toList)]

/-- A tag with its handle replaced by what it stands for. -/
def fullTag? (handles : TagHandles) (handle rest : List Char) : Option (List Char) :=
  if handle.isEmpty then some rest else (handles.lookup handle).map (· ++ rest)

/-- The properties before a node. -/
structure Properties where
  /-- The anchor. -/
  anchor : Option (List Char) := none
  /-- The tag. -/
  tag : Option (List Char) := none

/-- A node, and the tokens after it. -/
abbrev NodeRead := Option (Node (List Char) × List Token)

/-- Reads the properties of a node, which come in either order. -/
def properties? (handles : TagHandles) : List Token → Option (Properties × List Token)
  | .anchor a :: .tag h r :: ts => do return (⟨some a, some (← fullTag? handles h r)⟩, ts)
  | .tag h r :: .anchor a :: ts => do return (⟨some a, some (← fullTag? handles h r)⟩, ts)
  | .anchor a :: ts => some (⟨some a, none⟩, ts)
  | .tag h r :: ts => do return (⟨none, some (← fullTag? handles h r)⟩, ts)
  | ts => some ({}, ts)

namespace Properties

/-- A node with its anchor. -/
def apply (p : Properties) (n : Node (List Char)) : Node (List Char) :=
  match p.anchor with
  | none => n
  | some a => .anchored a n

/-- A scalar with its properties. The tag of a single exclamation mark says nothing. -/
def scalar (p : Properties) (style : ScalarStyle) (text : List Char) : Node (List Char) :=
  p.apply (.scalar style (p.tag.filter (· != ['!'])) text)

/-- The node where nothing is written but properties. -/
def nothing? (p : Properties) (ts : List Token) : NodeRead :=
  if p.anchor.isSome || p.tag.isSome then some (p.apply (.scalar .plain p.tag []), ts) else none

end Properties

/-- Where a node stands, which decides what it can be. -/
inductive Position where
  /-- In a block sequence or as the whole document. -/
  | block
  /-- In a block mapping, where a sequence may start in the column of the mapping. -/
  | blockMapping
  /-- In a flow collection. -/
  | flow
  deriving DecidableEq, Repr

/-- Whether a block mapping goes on without a node where one could stand. -/
def endsBlockPart : List Token → Bool
  | .key :: _ | .value :: _ | .blockEnd :: _ => true
  | _ => false

/-- Whether a block sequence goes on without a node where one could stand. -/
def endsEntry : List Token → Bool
  | .blockEntry :: _ | .blockEnd :: _ => true
  | _ => false

/-- Whether a sequence in the column of its mapping goes on without a node where one could stand. -/
def endsIndentless : List Token → Bool
  | .blockEntry :: _ => true
  | ts => endsBlockPart ts

/-- Whether a pair in a flow sequence goes on without a node where one could stand. -/
def endsFlowItem : List Token → Bool
  | .flowEntry :: _ | .flowSequenceEnd :: _ => true
  | _ => false

/-- Whether a flow mapping goes on without a node where one could stand. -/
def endsFlowPart : List Token → Bool
  | .flowEntry :: _ | .flowMappingEnd :: _ => true
  | _ => false

/-- The tokens after the comma that has to precede every part of a flow collection but the first. -/
def afterComma? (first : Bool) : List Token → Option (List Token)
  | .flowEntry :: ts => if first then some (.flowEntry :: ts) else some ts
  | ts => if first then some ts else none

mutual

/-- Reads a node. -/
def node? (handles : TagHandles) : (fuel : Nat) → Position → List Token → NodeRead
  | 0, _, _ => none
  | _ + 1, _, .alias name :: ts => some (.alias name, ts)
  | fuel + 1, position, ts => do
    let (p, ts) ← properties? handles ts
    match ts with
    | .scalar style text :: ts => return (p.scalar style text, ts)
    | .flowSequenceStart :: ts => do
      let (items, ts) ← flowItems? handles fuel true ts
      return (p.apply (.sequence items), ts)
    | .flowMappingStart :: ts => do
      let (entries, ts) ← flowEntries? handles fuel true ts
      return (p.apply (.mapping entries), ts)
    | .blockSequenceStart :: rest =>
      if position = .flow then p.nothing? ts
      else do
        let (items, ts) ← blockItems? handles fuel rest
        return (p.apply (.sequence items), ts)
    | .blockMappingStart :: rest =>
      if position = .flow then p.nothing? ts
      else do
        let (entries, ts) ← blockEntries? handles fuel rest
        return (p.apply (.mapping entries), ts)
    | .blockEntry :: _ =>
      if position = .blockMapping then do
        let (items, ts) ← indentlessItems? handles fuel ts
        return (p.apply (.sequence items), ts)
      else p.nothing? ts
    | _ => p.nothing? ts

/-- Reads the rest of a block sequence. -/
def blockItems? (handles : TagHandles) : (fuel : Nat) → List Token →
    Option (List (Node (List Char)) × List Token)
  | 0, _ => none
  | fuel + 1, .blockEntry :: ts => do
    let (item, ts) ← if endsEntry ts then some (.empty, ts) else node? handles fuel .block ts
    let (items, ts) ← blockItems? handles fuel ts
    return (item :: items, ts)
  | _ + 1, .blockEnd :: ts => some ([], ts)
  | _ + 1, _ => none

/-- Reads the rest of a sequence that stands in the column of the mapping around it, and so has no
end of its own. -/
def indentlessItems? (handles : TagHandles) : (fuel : Nat) → List Token →
    Option (List (Node (List Char)) × List Token)
  | 0, _ => none
  | fuel + 1, .blockEntry :: ts => do
    let (item, ts) ← if endsIndentless ts then some (.empty, ts) else node? handles fuel .block ts
    let (items, ts) ← indentlessItems? handles fuel ts
    return (item :: items, ts)
  | _ + 1, ts => some ([], ts)

/-- Reads the rest of a block mapping. -/
def blockEntries? (handles : TagHandles) : (fuel : Nat) → List Token →
    Option (List (Node (List Char) × Node (List Char)) × List Token)
  | 0, _ => none
  | fuel + 1, .key :: ts => do
    let (key, ts) ←
      if endsBlockPart ts then some (.empty, ts) else node? handles fuel .blockMapping ts
    let (value, ts) ← match ts with
      | .value :: ts =>
        if endsBlockPart ts then some (.empty, ts) else node? handles fuel .blockMapping ts
      | ts => some (.empty, ts)
    let (entries, ts) ← blockEntries? handles fuel ts
    return ((key, value) :: entries, ts)
  | _ + 1, .blockEnd :: ts => some ([], ts)
  | _ + 1, _ => none

/-- Reads the rest of a flow sequence. An item that starts with the sign of a key is a mapping of
one entry. -/
def flowItems? (handles : TagHandles) : (fuel : Nat) → (first : Bool) → List Token →
    Option (List (Node (List Char)) × List Token)
  | 0, _, _ => none
  | _ + 1, _, .flowSequenceEnd :: ts => some ([], ts)
  | fuel + 1, first, ts => do
    match ← afterComma? first ts with
    | .flowSequenceEnd :: ts => return ([], ts)
    | .key :: ts => do
      -- where the key is empty, the token that shows it is taken for part of it
      let (key, ts) ← match ts with
        | .value :: ts | .flowEntry :: ts | .flowSequenceEnd :: ts => some (.empty, ts)
        | ts => node? handles fuel .flow ts
      let (value, ts) ← match ts with
        | .value :: ts => if endsFlowItem ts then some (.empty, ts) else node? handles fuel .flow ts
        | ts => some (.empty, ts)
      let (items, ts) ← flowItems? handles fuel false ts
      return (.mapping [(key, value)] :: items, ts)
    | ts => do
      let (item, ts) ← node? handles fuel .flow ts
      let (items, ts) ← flowItems? handles fuel false ts
      return (item :: items, ts)

/-- Reads the rest of a flow mapping. An entry without the sign of a key has no value. -/
def flowEntries? (handles : TagHandles) : (fuel : Nat) → (first : Bool) → List Token →
    Option (List (Node (List Char) × Node (List Char)) × List Token)
  | 0, _, _ => none
  | _ + 1, _, .flowMappingEnd :: ts => some ([], ts)
  | fuel + 1, first, ts => do
    match ← afterComma? first ts with
    | .flowMappingEnd :: ts => return ([], ts)
    | .key :: ts => do
      let (key, ts) ← match ts with
        | .value :: _ => some (.empty, ts)
        | ts => if endsFlowPart ts then some (.empty, ts) else node? handles fuel .flow ts
      let (value, ts) ← match ts with
        | .value :: ts => if endsFlowPart ts then some (.empty, ts) else node? handles fuel .flow ts
        | ts => some (.empty, ts)
      let (entries, ts) ← flowEntries? handles fuel false ts
      return ((key, value) :: entries, ts)
    | ts => do
      let (key, ts) ← node? handles fuel .flow ts
      let (entries, ts) ← flowEntries? handles fuel false ts
      return ((key, .empty) :: entries, ts)

end

/-! ## Documents -/

/-- The directives before a document. A version is given once at most, and a handle too. -/
def directives? (version : Bool) (handles : TagHandles) :
    List Token → Option (TagHandles × List Token)
  | .versionDirective major minor :: ts =>
    if version || major != 1 || (minor != 1 && minor != 2) then none
    else directives? true handles ts
  | .tagDirective handle start :: ts =>
    if (handles.lookup handle).isSome then none
    else directives? version ((handle, start) :: handles) ts
  | ts => some (handles, ts)

/-- Whether a document of which the start is marked has no node. -/
def endsDocument : List Token → Bool
  | [] | .versionDirective .. :: _ | .tagDirective .. :: _ | .documentStart :: _
  | .documentEnd :: _ => true
  | _ => false

/-- The node of a document that starts here, and the tokens after it. -/
def documentNode? (ts : List Token) : NodeRead :=
  let fuel := 2 * ts.length + 2
  match ts with
  | .versionDirective .. :: _ | .tagDirective .. :: _ | .documentStart :: _ => do
    let (handles, .documentStart :: ts) ← directives? false [] ts | none
    if endsDocument ts then return (.empty, ts)
    else node? (handles ++ defaultHandles) fuel .block ts
  | ts => node? defaultHandles fuel .block ts

/-- The node of the one document of a text. A text without tokens is no document, which is told by
an inner `none`; a second document, or anything else after the first, is refused. -/
def document? (text : List Char) : Option (Option (Node (List Char))) := do
  match ← tokens? text with
  | [] => return none
  | ts =>
    let (n, rest) ← documentNode? ts
    if rest.all (· == .documentEnd) then return some n else none

end PortWarden.Yaml
