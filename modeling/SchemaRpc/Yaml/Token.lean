/-
# YAML tokens

What the scanner makes of a text: indicators, properties of nodes and scalars, with explicit
tokens for the begin and end of collections that are shown by indentation.
-/
import SchemaRpc.Bytes

namespace SchemaRpc

namespace Yaml

/-- The form in which a scalar is written. -/
inductive ScalarForm where
  | plain
  | quoted
  | literal
  | folded
deriving DecidableEq

/-- The handle and the suffix of a tag. A tag that is written out in full has an empty handle. -/
structure TagName where
  handle : List Char
  suffix : Bytes
deriving DecidableEq

/-- A token. -/
inductive Token where
  | version (major minor : Nat)
  /-- A directive that gives a tag handle its meaning. -/
  | handle (handle : List Char) (meaning : Bytes)
  | documentStart
  | documentEnd
  | streamEnd
  | blockSequenceStart
  | blockMappingStart
  | blockEnd
  | flowSequenceStart
  | flowSequenceEnd
  | flowMappingStart
  | flowMappingEnd
  | blockEntry
  | flowEntry
  | key
  | value
  | alias (name : List Char)
  | anchor (name : List Char)
  | tag (name : TagName)
  | scalar (form : ScalarForm) (text : List Char)
deriving DecidableEq

end Yaml

end SchemaRpc
