/-
# Resolution errors

Why a package does not resolve, and how that is worded.
-/
import SchemaRpc.Schema.Default
import SchemaRpc.Schema.Numbering
import SchemaRpc.Schema.Tags

namespace SchemaRpc

namespace Schema

/-- Why a package does not resolve. -/
inductive ResolveError where
  /-- Two declarations share a name, or one has the name of a primitive type. -/
  | duplicateDeclaration (name : String)
  /-- Two members of one declaration share a name. -/
  | duplicateMember (owner member : String)
  | unknownType (owner name : String)
  | unknownInterface (module name : String)
  | invalidTag (owner member : String) (tag : Nat)
  | tagCollision (owner member : String) (tag : Tag) (holder : TagHolder)
  | enumValueCollision (owner label : String) (value : Int) (holder : String)
  | enumValueOverflow (owner label : String)
  | emptyUnion (name : String)
  /-- A type contains itself by value; the path begins and ends with it. -/
  | cycle (path : List String)
  | defaultMismatch (owner field type : String) (fault : LiteralFault)
deriving DecidableEq

/-- The wording of an error. -/
def ResolveError.message : ResolveError → String
  | .duplicateDeclaration name => s!"duplicate declaration '{name}'"
  | .duplicateMember owner member => s!"'{owner}' declares member '{member}' more than once"
  | .unknownType owner name => s!"'{owner}' references unknown type '{name}'"
  | .unknownInterface module name => s!"module '{module}' references unknown interface '{name}'"
  | .invalidTag owner member tag => s!"'{owner}.{member}' has invalid tag {tag}"
  | .tagCollision owner member tag holder =>
    s!"'{owner}': tag {tag.val} of '{member}' collides with '{holder.name}'"
  | .enumValueCollision owner label value holder =>
    s!"enum '{owner}': value {value} of '{label}' collides with '{holder}'"
  | .enumValueOverflow owner label => s!"enum '{owner}': implicit value of '{label}' overflows i32"
  | .emptyUnion name => s!"union '{name}' has no variants"
  | .cycle path => "by-value cycle: " ++ " -> ".intercalate path
  | .defaultMismatch owner field type fault =>
    s!"default of '{owner}.{field}' does not fit type {type}: {fault.message}"

/-- The name of the kind of an error. -/
def ResolveError.kindName : ResolveError → String
  | .duplicateDeclaration .. => "DuplicateDeclaration"
  | .duplicateMember .. => "DuplicateMember"
  | .unknownType .. => "UnknownType"
  | .unknownInterface .. => "UnknownInterface"
  | .invalidTag .. => "InvalidTag"
  | .tagCollision .. => "TagCollision"
  | .enumValueCollision .. => "EnumValueCollision"
  | .enumValueOverflow .. => "EnumValueOverflow"
  | .emptyUnion .. => "EmptyUnion"
  | .cycle .. => "SchemaCycle"
  | .defaultMismatch .. => "DefaultTypeMismatch"

/-- A fault of tag assignment as an error about a member of `owner`. -/
def TagFault.toError (owner member : String) : TagFault → ResolveError
  | .invalid tag => .invalidTag owner member tag
  | .taken tag holder => .tagCollision owner member tag holder

/-- A fault of enum numbering as an error about a label of `owner`. -/
def NumberFault.toError (owner label : String) : NumberFault → ResolveError
  | .overflow => .enumValueOverflow owner label
  | .taken value holder => .enumValueCollision owner label value holder

end Schema

end SchemaRpc
