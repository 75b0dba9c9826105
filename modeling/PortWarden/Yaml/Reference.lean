import PortWarden.Yaml.Node

/-!
# References

Which anchor an alias means. Anchors are numbered in the order of the document, each by how many
different names there were before it, and an alias means the number that its name was last given. A
name that is given again gets a new number but does not count as a further name, so that two anchors
can share a number; the later one then stands for both.
-/

namespace PortWarden.Yaml

/-- The numbers that names have been given. -/
abbrev AnchorNumbers := List (List Char × Nat)

/-- Gives a name the number of names so far. -/
def giveNumber (name : List Char) (numbers : AnchorNumbers) : Nat × AnchorNumbers :=
  (numbers.length, (name, numbers.length) :: numbers.filter (·.1 != name))

mutual

/-- Replaces names by numbers in a node. An alias of a name without a number is refused. -/
def Node.number? : Node (List Char) → AnchorNumbers → Option (Node Nat × AnchorNumbers)
  | .scalar style tag text, numbers => some (.scalar style tag text, numbers)
  | .sequence items, numbers => do
    let (items, numbers) ← numberItems? items numbers
    return (.sequence items, numbers)
  | .mapping entries, numbers => do
    let (entries, numbers) ← numberEntries? entries numbers
    return (.mapping entries, numbers)
  | .anchored name node, numbers => do
    let (n, numbers) := giveNumber name numbers
    let (node, numbers) ← node.number? numbers
    return (.anchored n node, numbers)
  | .alias name, numbers => do return (.alias (← numbers.lookup name), numbers)

/-- Replaces names by numbers in the items of a sequence. -/
def numberItems? : List (Node (List Char)) → AnchorNumbers →
    Option (List (Node Nat) × AnchorNumbers)
  | [], numbers => some ([], numbers)
  | item :: items, numbers => do
    let (item, numbers) ← item.number? numbers
    let (items, numbers) ← numberItems? items numbers
    return (item :: items, numbers)

/-- Replaces names by numbers in the entries of a mapping. -/
def numberEntries? : List (Node (List Char) × Node (List Char)) → AnchorNumbers →
    Option (List (Node Nat × Node Nat) × AnchorNumbers)
  | [], numbers => some ([], numbers)
  | (key, value) :: entries, numbers => do
    let (key, numbers) ← key.number? numbers
    let (value, numbers) ← value.number? numbers
    let (entries, numbers) ← numberEntries? entries numbers
    return ((key, value) :: entries, numbers)

end

mutual

/-- The anchored nodes of a tree with their numbers, in the order in which they start. -/
def Node.anchors : Node Nat → List (Nat × Node Nat)
  | .scalar .. => []
  | .sequence items => itemAnchors items
  | .mapping entries => entryAnchors entries
  | .anchored n node => (n, node) :: node.anchors
  | .alias _ => []

/-- The anchored nodes among the items of a sequence. -/
def itemAnchors : List (Node Nat) → List (Nat × Node Nat)
  | [] => []
  | item :: items => item.anchors ++ itemAnchors items

/-- The anchored nodes among the entries of a mapping. -/
def entryAnchors : List (Node Nat × Node Nat) → List (Nat × Node Nat)
  | [] => []
  | (key, value) :: entries => key.anchors ++ value.anchors ++ entryAnchors entries

end

/-- A tree in which every alias has its anchor. -/
structure Document where
  /-- The tree. -/
  root : Node Nat
  /-- The anchored nodes with their numbers, the last first. -/
  anchors : List (Nat × Node Nat)

/-- The document of a tree of names. -/
def Document.ofNode? (n : Node (List Char)) : Option Document := do
  let (root, _) ← n.number? []
  return ⟨root, root.anchors.reverse⟩

/-- The node that a node stands for: itself without its anchor, or the one that an alias refers
to. -/
def Document.follow (d : Document) : Node Nat → Node Nat
  | .anchored _ node => node
  | .alias n => (d.anchors.lookup n).getD .empty
  | node => node

end PortWarden.Yaml
