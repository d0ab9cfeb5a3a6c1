/-
# Settings in YAML

What a YAML document says about the configuration.  A scalar without quotes is read as whatever its
place asks for: a natural number, also one in another radix, or a truth value.
-/
import SchemaRpc.Config.Setting
import SchemaRpc.Yaml.Anchors
import SchemaRpc.Yaml.Scalar.Value

namespace SchemaRpc

namespace Setting

/-- The size that a text writes. -/
def sizeOfText? (text : String) : Option Nat :=
  match text.toList with
  | '-' :: _ => none
  | digits => (Yaml.natural? (Yaml.unsigned digits)).filter fun n => IntKind.u64.Holds n

/-- What a scalar says. One that keeps its line breaks says something only if its tag does. -/
def ofScalar (tag : Option Bytes) (form : Yaml.ScalarForm) (text : String) : Setting :=
  let read (core : Yaml.CoreTag) : Bool :=
    form = .plain || form = .literal && tag.bind Yaml.CoreTag.ofName? = some core
  if form = .plain ∧ text = "" then .blank
  else
    match sizeOfText? text, Yaml.bool? text with
    | some n, _ => if read .int then .size n else .other
    | none, some on => if read .bool then .switch on else .other
    | none, none => .other

/-- How many collections a configuration has inside each other. -/
def nesting : Nat := 2

/-- What a node with at most `depth` collections inside each other says. The names of members are
the texts of their keys; a mapping with a collection for a key says nothing. -/
def ofNode (tree : Yaml.Tree) (depth : Nat) (node : Yaml.Node Nat) : Setting :=
  match depth, tree.follow? node with
  | _, some (.scalar p form text) => ofScalar p.tag form text
  | depth + 1, some (.mapping _ entries) =>
    let members := entries.mapM fun (key, value) =>
      match tree.follow? key with
      | some (.scalar _ _ name) => some (name, ofNode tree depth value)
      | _ => none
    (members.map .group).getD .other
  | _, _ => .other

end Setting

/-- The configuration of a YAML text. -/
def Config.ofYamlText? (text : String) : Option Config := do
  let tree ← Yaml.Tree.ofText? text
  match tree.root with
  | none => Setting.blank.config?
  | some root => (Setting.ofNode tree Setting.nesting root).config?

end SchemaRpc
