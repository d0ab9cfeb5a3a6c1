/-
# Packages as JSON

The JSON value of a package.  What a package leaves out is left out of the JSON: tags, enum
values, literals, the parameter lists of output and failure, empty lists of reserved tags, and
the mark of a field that is not optional.  The lists of declarations, of the fields of a struct
and of the input parameters of a method are always written.
-/
import SchemaRpc.Package.Basic

namespace SchemaRpc

namespace Package

/-- A type expression as JSON. -/
def TypeExpr.toJson : TypeExpr → Json
  | .named name => .string name
  | .array item => .ofMembers [("array", item.toJson)]

/-- A tag as JSON. -/
def tagJson (tag : Tag) : Json := .int tag.val

/-- The member of an object for something that may be left out. -/
def optionally {α : Type} (name : String) (toJson : α → Json) (a : Option α) :
    List (String × Json) :=
  (a.map fun a => (name, toJson a)).toList

/-- The member of an object for reserved tags, if there are any. -/
def reservedMembers (reserved : List Tag) : List (String × Json) :=
  if reserved.isEmpty then [] else [("reserved", .array (reserved.map tagJson))]

/-- A label of an enum as JSON. -/
def Label.toJson (l : Label) : Json :=
  .ofMembers (("label", .string l.name) :: optionally "value" (fun v => .int v.val) l.value)

/-- A variant of a union as JSON. -/
def Variant.toJson (v : Variant) : Json :=
  .ofMembers ([("name", .string v.name), ("type", v.type.toJson)] ++ optionally "tag" tagJson v.tag)

/-- A field as JSON. -/
def Field.toJson (f : Field) : Json :=
  .ofMembers ([("name", .string f.name), ("type", f.type.toJson)]
    ++ (if f.optional then [("optional", .bool true)] else [])
    ++ optionally "tag" tagJson f.tag ++ optionally "default" id f.literal)

/-- A list of fields as JSON. -/
def fieldsJson (fields : List Field) : Json := .array (fields.map Field.toJson)

/-- A method as JSON. -/
def Method.toJson (m : Method) : Json :=
  .ofMembers ([("name", .string m.name), ("in", fieldsJson m.input)]
    ++ optionally "tag" tagJson m.tag ++ optionally "out" fieldsJson m.output
    ++ optionally "throw" fieldsJson m.failure)

/-- A member of a module as JSON. -/
def Member.toJson (m : Member) : Json :=
  .ofMembers ([("name", .string m.name), ("interface", .string m.interface)]
    ++ optionally "tag" tagJson m.tag)

/-- What a declaration contains, as members of an object. -/
def Declaration.contents : Declaration → List (String × Json)
  | .enum _ labels => [("values", .array (labels.map Label.toJson))]
  | .union _ variants reserved =>
    ("variants", .array (variants.map Variant.toJson)) :: reservedMembers reserved
  | .struct _ fields reserved => ("fields", fieldsJson fields) :: reservedMembers reserved
  | .interface _ methods => [("methods", .array (methods.map Method.toJson))]
  | .module _ members => [("members", .array (members.map Member.toJson))]

/-- A declaration as JSON. -/
def Declaration.toJson (d : Declaration) : Json :=
  .ofMembers (("kind", .string d.kindName) :: ("name", .string d.name) :: d.contents)

/-- A package as JSON. -/
def toJson (p : Package) : Json :=
  .ofMembers [("package", .string p.name),
    ("declarations", .array (p.declarations.map Declaration.toJson))]

end Package

end SchemaRpc
