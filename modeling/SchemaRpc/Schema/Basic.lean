/-
# Schemas

A resolved package.  Types are referred to by their position in the schema's lists of enums,
unions and structs; every member has its tag, every enum label its value, and every default is
a value.  The parameters of a method are structs of their own.
-/
import SchemaRpc.Value.Basic

namespace SchemaRpc

/-- A reference to a type of a schema. A position may be any number: it is taken for granted that
the lists of a schema have less than `2 ^ 32` entries, so that four bytes would hold it too. -/
inductive TypeRef where
  | prim (p : Primitive)
  /-- The enum at a position. -/
  | enum (id : Nat)
  /-- The union at a position. -/
  | union (id : Nat)
  /-- The struct at a position. -/
  | struct (id : Nat)
  | array (item : TypeRef)
deriving DecidableEq

/-- The word for the kind of a type. -/
def TypeRef.kindName : TypeRef → String
  | .prim _ => "primitive"
  | .enum _ => "enum"
  | .union _ => "union"
  | .struct _ => "struct"
  | .array _ => "array"

namespace Schema

/-- A label of an enum with its value. -/
structure Label where
  name : String
  value : IntKind.i32.Ranged
deriving DecidableEq

/-- An enum; its labels stand in the order of their declaration. -/
structure EnumType where
  name : String
  labels : List Label
deriving DecidableEq

/-- The value of a label. -/
def EnumType.valueOf? (e : EnumType) (label : String) : Option IntKind.i32.Ranged :=
  (e.labels.find? (·.name = label)).map (·.value)

/-- The label of a value. -/
def EnumType.labelOf? (e : EnumType) (value : IntKind.i32.Ranged) : Option String :=
  (e.labels.find? (·.value = value)).map (·.name)

/-- Whether some label has the value. -/
def EnumType.contains (e : EnumType) (value : IntKind.i32.Ranged) : Bool :=
  e.labels.any (·.value = value)

/-- The member of a tag among members in ascending order of their tags, in at most so many steps:
each step looks at the member in the middle and goes on before or behind it. -/
def searchByTag {α : Type} (tagOf : α → Tag) (tag : Tag) : Nat → List α → Option α
  | 0, _ => none
  | steps + 1, members =>
    match members.drop (members.length / 2) with
    | [] => none
    | middle :: behind =>
      if tag = tagOf middle then some middle
      else if tag < tagOf middle then
        searchByTag tagOf tag steps (members.take (members.length / 2))
      else searchByTag tagOf tag steps behind

/-- A variant of a union. -/
structure Variant where
  name : String
  tag : Tag
  type : TypeRef
deriving DecidableEq

/-- A union; its variants stand in ascending order of their tags. -/
structure UnionType where
  name : String
  variants : List Variant
deriving DecidableEq

/-- The variant of a name. -/
def UnionType.variant? (u : UnionType) (name : String) : Option Variant :=
  u.variants.find? (·.name = name)

/-- The variant of a tag. -/
def UnionType.variantByTag? (u : UnionType) (tag : Tag) : Option Variant :=
  searchByTag (·.tag) tag u.variants.length u.variants

/-- A field of a struct. -/
structure Field where
  name : String
  tag : Tag
  type : TypeRef
  optional : Bool
  /-- The value that stands for the field when it is not sent. -/
  default : Option Value

/-- Whether the field has to be sent. -/
def Field.isMandatory (f : Field) : Bool := !f.optional && f.default.isNone

/-- A struct; its fields stand in ascending order of their tags. -/
structure StructType where
  name : String
  fields : List Field

/-- The field of a name. -/
def StructType.field? (s : StructType) (name : String) : Option Field :=
  s.fields.find? (·.name = name)

/-- The field of a tag. -/
def StructType.fieldByTag? (s : StructType) (tag : Tag) : Option Field :=
  searchByTag (·.tag) tag s.fields.length s.fields

/-- A method: its parameters, its reply and its exception are structs; a method without a reply
is void, one without an exception raises none. -/
structure Method where
  name : String
  tag : Tag
  args : Nat
  reply : Option Nat
  exception : Option Nat
deriving DecidableEq

/-- Whether the method has no reply. -/
def Method.isVoid (m : Method) : Bool := m.reply.isNone

/-- An interface; its methods stand in ascending order of their tags. -/
structure InterfaceType where
  name : String
  methods : List Method
deriving DecidableEq

/-- The method of a name. -/
def InterfaceType.method? (i : InterfaceType) (name : String) : Option Method :=
  i.methods.find? (·.name = name)

/-- A member of a module: the interface at a position under a name. -/
structure Member where
  name : String
  tag : Tag
  interface : Nat
deriving DecidableEq

/-- A module; its members stand in ascending order of their tags. -/
structure ModuleType where
  name : String
  members : List Member
deriving DecidableEq

/-- The member of a name. -/
def ModuleType.member? (m : ModuleType) (name : String) : Option Member :=
  m.members.find? (·.name = name)

end Schema

/-- A resolved package. -/
structure Schema where
  /-- The name of the package. -/
  package : String
  /-- The digest of the package's canonical text. -/
  fingerprint : Bytes
  enums : List Schema.EnumType
  unions : List Schema.UnionType
  /-- The declared structs, then the ones made of parameters of methods. -/
  structs : List Schema.StructType
  interfaces : List Schema.InterfaceType
  modules : List Schema.ModuleType
  /-- The types by name, primitive types apart. -/
  typeNames : List (String × TypeRef)
  /-- The positions of the interfaces by name. -/
  interfaceNames : List (String × Nat)

namespace Schema

/-- The enum at a position; beyond the last one an enum without labels. -/
def enumType (s : Schema) (id : Nat) : EnumType := s.enums[id]?.getD ⟨"", []⟩

/-- The union at a position; beyond the last one a union without variants. -/
def unionType (s : Schema) (id : Nat) : UnionType := s.unions[id]?.getD ⟨"", []⟩

/-- The struct at a position; beyond the last one a struct without fields. -/
def structType (s : Schema) (id : Nat) : StructType := s.structs[id]?.getD ⟨"", []⟩

/-- The interface at a position; beyond the last one an interface without methods. -/
def interfaceType (s : Schema) (id : Nat) : InterfaceType := s.interfaces[id]?.getD ⟨"", []⟩

/-- The name of a type: the one it was declared under, with `[]` for each array around it. -/
def typeName (s : Schema) : TypeRef → String
  | .prim p => p.name
  | .enum id => (s.enumType id).name
  | .union id => (s.unionType id).name
  | .struct id => (s.structType id).name
  | .array item => s.typeName item ++ "[]"

/-- The type of a name, primitive types first. -/
def type? (s : Schema) (name : String) : Option TypeRef :=
  match Primitive.ofName? name with
  | some p => some (.prim p)
  | none => s.typeNames.lookup name

/-- The position of the struct of a name. -/
def structId? (s : Schema) (name : String) : Option Nat :=
  match s.typeNames.lookup name with
  | some (.struct id) => some id
  | _ => none

/-- The position of the union of a name. -/
def unionId? (s : Schema) (name : String) : Option Nat :=
  match s.typeNames.lookup name with
  | some (.union id) => some id
  | _ => none

/-- The position of the enum of a name. -/
def enumId? (s : Schema) (name : String) : Option Nat :=
  match s.typeNames.lookup name with
  | some (.enum id) => some id
  | _ => none

/-- The interface of a name. -/
def interface? (s : Schema) (name : String) : Option InterfaceType :=
  (s.interfaceNames.lookup name).map s.interfaceType

/-- The module of a name. -/
def module? (s : Schema) (name : String) : Option ModuleType := s.modules.find? (·.name = name)

/-- The method that a module, a member of it and a method of the member's interface name. -/
def route? (s : Schema) (module member method : String) : Option Method := do
  let m ← (← s.module? module).member? member
  (s.interfaceType m.interface).method? method

end Schema

end SchemaRpc
