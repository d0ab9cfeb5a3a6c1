/-
# Anchors

What the aliases of a YAML document stand for.  Anchored nodes are numbered, and an alias refers
to the number that its name had last.  A name that is given again does not count as a further
name, so two nodes can come to have one number; then the later one is meant.
-/
import SchemaRpc.Yaml.Document
import SchemaRpc.Yaml.Tokens

namespace SchemaRpc

namespace Yaml

/-- The numbers of the anchor names so far, each name once. -/
abbrev AnchorNumbers := List (List Char × Nat)

/-- Give a name the number of names that there are. -/
def AnchorNumbers.add (numbers : AnchorNumbers) (name : List Char) : AnchorNumbers :=
  (name, numbers.length) :: numbers.filter (·.1 ≠ name)

/-- Properties with a number for the anchor. -/
def Properties.numbered (p : Properties (List Char)) (numbers : AnchorNumbers) :
    Properties Nat × AnchorNumbers :=
  match p.anchor with
  | some name => (⟨some numbers.length, p.tag⟩, numbers.add name)
  | .none => (⟨.none, p.tag⟩, numbers)

namespace Node

mutual

/-- A node with numbers for anchors, in the order of the text; none if an alias has no anchor
before it. -/
def numbered? (numbers : AnchorNumbers) : NamedNode → Option (Node Nat × AnchorNumbers)
  | .alias name => (numbers.lookup name).map fun n => (.alias n, numbers)
  | .scalar p form text =>
    let (p, numbers) := p.numbered numbers
    some (.scalar p form text, numbers)
  | .sequence p items => do
    let (p, numbers) := p.numbered numbers
    let (items, numbers) ← numberedItems? numbers [] items
    return (.sequence p items, numbers)
  | .mapping p entries => do
    let (p, numbers) := p.numbered numbers
    let (entries, numbers) ← numberedEntries? numbers [] entries
    return (.mapping p entries, numbers)

/-- Items with numbers for anchors, after those already numbered in reverse. -/
def numberedItems? (numbers : AnchorNumbers) (done : List (Node Nat)) :
    List NamedNode → Option (List (Node Nat) × AnchorNumbers)
  | [] => some (done.reverse, numbers)
  | item :: more =>
    match numbered? numbers item with
    | some (item, numbers) => numberedItems? numbers (item :: done) more
    | none => none

/-- Entries with numbers for anchors, after those already numbered in reverse. -/
def numberedEntries? (numbers : AnchorNumbers) (done : List (Node Nat × Node Nat)) :
    List (NamedNode × NamedNode) → Option (List (Node Nat × Node Nat) × AnchorNumbers)
  | [] => some (done.reverse, numbers)
  | (key, value) :: more =>
    match numbered? numbers key with
    | some (key, numbers) =>
      match numbered? numbers value with
      | some (value, numbers) => numberedEntries? numbers ((key, value) :: done) more
      | none => none
    | none => none

end

/-- The properties of a node. An alias has none. -/
def properties {α : Type} : Node α → Properties α
  | .alias _ => .none
  | .scalar p .. | .sequence p _ | .mapping p _ => p

/-- The anchored nodes up to and including the outside of a node, the latest first. -/
def noteAnchor {α : Type} (node : Node α) (earlier : List (α × Node α)) : List (α × Node α) :=
  match node.properties.anchor with
  | some anchor => (anchor, node) :: earlier
  | none => earlier

mutual

/-- The anchored nodes up to the end of a node, the latest first. -/
def anchored {α : Type} (earlier : List (α × Node α)) : Node α → List (α × Node α)
  | .alias _ => earlier
  | .scalar p form text => (Node.scalar p form text).noteAnchor earlier
  | .sequence p items => anchoredItems ((Node.sequence p items).noteAnchor earlier) items
  | .mapping p entries => anchoredEntries ((Node.mapping p entries).noteAnchor earlier) entries

/-- The anchored nodes up to the end of items, the latest first. -/
def anchoredItems {α : Type} (earlier : List (α × Node α)) : List (Node α) → List (α × Node α)
  | [] => earlier
  | item :: more => anchoredItems (anchored earlier item) more

/-- The anchored nodes up to the end of entries, the latest first. -/
def anchoredEntries {α : Type} (earlier : List (α × Node α)) :
    List (Node α × Node α) → List (α × Node α)
  | [] => earlier
  | (key, value) :: more => anchoredEntries (anchored (anchored earlier key) value) more

end

end Node

/-- A document whose aliases can be followed. -/
structure Tree where
  /-- The node of the document; an empty text has none. -/
  root : Option (Node Nat)
  /-- The anchored nodes, the latest first. -/
  targets : List (Nat × Node Nat)

/-- The document of a text. -/
def Tree.ofText? (text : String) : Option Tree := do
  match ← nodeOfTokens? (← tokens? text.toList) with
  | none => return ⟨none, []⟩
  | some named =>
    let (root, _) ← named.numbered? []
    return ⟨some root, root.anchored []⟩

/-- The node that an alias stands for; other nodes stand for themselves. -/
def Tree.follow? (tree : Tree) : Node Nat → Option (Node Nat)
  | .alias n => tree.targets.lookup n
  | node => some node

end Yaml

end SchemaRpc
