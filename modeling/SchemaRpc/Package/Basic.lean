/-
# Packages

A package is a list of declarations: enums, unions, structs, interfaces and modules.  Types
are still names here, and tags, enum values and most properties of members may be left out;
resolution settles them.
-/
import SchemaRpc.Json.Basic
import SchemaRpc.Value.Basic

namespace SchemaRpc

namespace Package

/-- A type as written: a name, or the array of a type. -/
inductive TypeExpr where
  | named (name : String)
  | array (item : TypeExpr)
deriving DecidableEq

/-- A label of an enum, with its value if one is given. -/
structure Label where
  name : String
  value : Option IntKind.i32.Ranged
deriving DecidableEq

/-- A variant of a union. -/
structure Variant where
  name : String
  type : TypeExpr
  tag : Option Tag
deriving DecidableEq

/-- A field of a struct, or a parameter of a method. -/
structure Field where
  name : String
  type : TypeExpr
  optional : Bool
  tag : Option Tag
  /-- The literal that stands for a field that is not sent. -/
  literal : Option Json

/-- A method of an interface. A method without output parameters is void; one without failure
parameters raises no exceptions. -/
structure Method where
  name : String
  tag : Option Tag
  input : List Field
  output : Option (List Field)
  failure : Option (List Field)

/-- A member of a module: an interface under a name. -/
structure Member where
  name : String
  interface : String
  tag : Option Tag
deriving DecidableEq

/-- A declaration. -/
inductive Declaration where
  | enum (name : String) (labels : List Label)
  | union (name : String) (variants : List Variant) (reserved : List Tag)
  | struct (name : String) (fields : List Field) (reserved : List Tag)
  | interface (name : String) (methods : List Method)
  | module (name : String) (members : List Member)

/-- The name that a declaration introduces. -/
def Declaration.name : Declaration → String
  | .enum name _ => name
  | .union name _ _ => name
  | .struct name _ _ => name
  | .interface name _ => name
  | .module name _ => name

/-- The word for the kind of a declaration. -/
def Declaration.kindName : Declaration → String
  | .enum .. => "enum"
  | .union .. => "union"
  | .struct .. => "struct"
  | .interface .. => "interface"
  | .module .. => "module"

end Package

/-- A package: its dotted name and its declarations in order. -/
structure Package where
  name : String
  declarations : List Package.Declaration

end SchemaRpc
