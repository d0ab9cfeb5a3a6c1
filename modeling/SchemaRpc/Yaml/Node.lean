/-
# YAML nodes

The tree of nodes of a YAML document, before anything is made of the scalars.  Anchors and
aliases stay in the tree; how they are identified is a parameter.
-/
import SchemaRpc.Yaml.Token

namespace SchemaRpc

namespace Yaml

/-- The properties of a node: an anchor, identified by an `α`, and a tag, written out in full. -/
structure Properties (α : Type) where
  anchor : Option α
  tag : Option Bytes
deriving DecidableEq

/-- No properties. -/
def Properties.none {α : Type} : Properties α := ⟨.none, .none⟩

/-- A node. -/
inductive Node (α : Type) where
  /-- What an anchor stands for. -/
  | alias (anchor : α)
  | scalar (properties : Properties α) (form : ScalarForm) (text : String)
  | sequence (properties : Properties α) (items : List (Node α))
  | mapping (properties : Properties α) (entries : List (Node α × Node α))

namespace Node

variable {α : Type}

/-- A node of which nothing is written. -/
def empty : Node α := .scalar .none .plain ""

mutual

/-- How many scalars and aliases there are in a node, with two for each collection. -/
def weight : Node α → Nat
  | .alias _ => 1
  | .scalar .. => 1
  | .sequence _ items => weightItems items + 2
  | .mapping _ entries => weightEntries entries + 2

/-- The weight of items. -/
def weightItems : List (Node α) → Nat
  | [] => 0
  | item :: more => item.weight + weightItems more

/-- The weight of entries. -/
def weightEntries : List (Node α × Node α) → Nat
  | [] => 0
  | (key, value) :: more => key.weight + value.weight + weightEntries more

end

end Node

end Yaml

end SchemaRpc
