/-
# Reading values from YAML

The value of a YAML document, in terms of JSON.  The names of members are the texts of the keys,
and of members with one name the later counts.  A document nested deeper than 128 collections is
refused, aliases being expanded, and so is one in which aliases are followed more than a hundred
times as often as there are parts in the document.
-/
import SchemaRpc.Yaml.Anchors
import SchemaRpc.Yaml.Scalar.Value

namespace SchemaRpc

namespace Yaml

/-- How many collections may be open at one place. -/
def nestingLimit : Nat := 128

/-- How often aliases may be followed for each part of a document. -/
def expansionFactor : Nat := 100

/-- A computation that follows aliases: the state is how many more may be followed. -/
abbrev Expanding := StateT Nat Option

/-- The node that an alias stands for; other nodes stand for themselves. -/
def Tree.expand (tree : Tree) (node : Node Nat) : Expanding (Node Nat) := do
  if let .alias _ := node then
    match ← get with
    | 0 => failure
    | left + 1 => set left
  tree.follow? node

/-- The text of a key. A collection cannot be a key. -/
def Tree.name (tree : Tree) (key : Node Nat) : Expanding String := do
  match ← tree.expand key with
  | .scalar _ _ text => return text
  | _ => failure

/-- The value of a node with at most `depth` collections inside each other. -/
def Tree.value (tree : Tree) (depth : Nat) (node : Node Nat) : Expanding Json := do
  let node ← tree.expand node
  if node.properties.isForeign then failure
  match depth, node with
  | _, .scalar p form text => scalarValue? p form text
  | depth + 1, .sequence _ items => return .array (← items.mapM (tree.value depth))
  | depth + 1, .mapping _ entries =>
    let members ← entries.foldlM (fun (members : Json.Members) (key, value) => do
      let name ← tree.name key
      return members.insert name (← tree.value depth value)) .nil
    return .object members
  | _, _ => failure

/-- The value of a document. An empty document is null. -/
def Tree.value? (tree : Tree) : Option Json :=
  match tree.root with
  | none => some .null
  | some root => ((tree.value nestingLimit root).run (expansionFactor * root.weight)).map (·.1)

/-- The value of a YAML text. -/
def parse? (text : String) : Option Json := (Tree.ofText? text).bind (·.value?)

end Yaml

end SchemaRpc
