/-
# Resolution

The schema of a package.  First every declaration claims its name, so that types may refer to
declarations before and after them.  Then enums, unions, structs, interfaces and modules are
resolved, each kind in the order of declaration, and the parameter lists of methods become
structs named after interface and method.  Last, types that contain themselves by value are
refused.  The first error ends resolution.
-/
import SchemaRpc.Package.Written
import SchemaRpc.Schema.Cycle
import SchemaRpc.Schema.Error
import SchemaRpc.Sha256

namespace SchemaRpc

namespace Schema

/-- A result of resolution or the error that ended it. -/
abbrev Resolved := Except ResolveError

/-- The names that have been introduced so far. -/
structure Scope where
  /-- All names in use. -/
  claimed : List String
  types : List (String × TypeRef)
  interfaces : List (String × Nat)
deriving DecidableEq

/-- Take a name into use; it must be new and not that of a primitive type. -/
def Scope.claim (s : Scope) (name : String) : Resolved Scope :=
  if (Primitive.ofName? name).isSome || s.claimed.contains name then
    .error (.duplicateDeclaration name)
  else .ok ⟨name :: s.claimed, s.types, s.interfaces⟩

/-- Introduce a type. -/
def Scope.addType (s : Scope) (name : String) (type : TypeRef) : Scope :=
  ⟨s.claimed, s.types ++ [(name, type)], s.interfaces⟩

/-- Introduce an interface. -/
def Scope.addInterface (s : Scope) (name : String) (id : Nat) : Scope :=
  ⟨s.claimed, s.types, s.interfaces ++ [(name, id)]⟩

/-- How many enums, unions, structs and interfaces have been declared. -/
structure Counts where
  enums : Nat
  unions : Nat
  structs : Nat
  interfaces : Nat
deriving DecidableEq

/-- The names of declarations, each with the position that it will have. -/
def declare : Scope → Counts → List Package.Declaration → Resolved Scope
  | s, _, [] => .ok s
  | s, n, d :: more =>
    match s.claim d.name with
    | .error e => .error e
    | .ok s =>
      match d with
      | .enum name _ =>
        declare (s.addType name (.enum n.enums))
          ⟨n.enums + 1, n.unions, n.structs, n.interfaces⟩ more
      | .union name _ _ =>
        declare (s.addType name (.union n.unions))
          ⟨n.enums, n.unions + 1, n.structs, n.interfaces⟩ more
      | .struct name _ _ =>
        declare (s.addType name (.struct n.structs))
          ⟨n.enums, n.unions, n.structs + 1, n.interfaces⟩ more
      | .interface name _ =>
        declare (s.addInterface name n.interfaces)
          ⟨n.enums, n.unions, n.structs, n.interfaces + 1⟩ more
      | .module _ _ => declare s n more

/-- The first name that occurs a second time, given the names seen before. -/
def firstRepeated? : (seen : List String) → List String → Option String
  | _, [] => none
  | seen, name :: more =>
    if seen.contains name then some name else firstRepeated? (name :: seen) more

/-- Refuse two members of one name. -/
def checkUnique (owner : String) (names : List String) : Resolved Unit :=
  match firstRepeated? [] names with
  | some name => .error (.duplicateMember owner name)
  | none => .ok ()

/-- The type that a type expression names. -/
def Scope.typeOf (s : Scope) (owner : String) : Package.TypeExpr → Resolved TypeRef
  | .named name =>
    match Primitive.ofName? name with
    | some p => .ok (.prim p)
    | none =>
      match s.types.lookup name with
      | some type => .ok type
      | none => .error (.unknownType owner name)
  | .array item => (s.typeOf owner item).map .array

/-- A type expression as it is named in messages. -/
def typeExprName : Package.TypeExpr → String
  | .named name => name
  | .array item => typeExprName item ++ "[]"

/-- The next tag for a member of `owner`. -/
def nextTag (owner : String) (tags : Tagging) (member : String) (explicit : Option Tag) :
    Resolved (Tag × Tagging) :=
  (tags.assign member explicit).mapError (·.toError owner member)

/-- The labels of an enum, values given so far. -/
def resolveLabels (owner : String) : Numbering → List Package.Label → Resolved (List Label)
  | _, [] => .ok []
  | n, l :: more => do
    let (value, n) ← (n.assign l.name l.value).mapError (·.toError owner l.name)
    return ⟨l.name, value⟩ :: (← resolveLabels owner n more)

/-- An enum. -/
def resolveEnum (name : String) (labels : List Package.Label) : Resolved EnumType := do
  checkUnique name (labels.map (·.name))
  return ⟨name, ← resolveLabels name .start labels⟩

/-- The variants of a union in the order of declaration, tags given so far. -/
def resolveVariants (s : Scope) (owner : String) :
    Tagging → List Package.Variant → Resolved (List Variant)
  | _, [] => .ok []
  | tags, v :: more => do
    let (tag, tags) ← nextTag owner tags v.name v.tag
    let type ← s.typeOf owner v.type
    return ⟨v.name, tag, type⟩ :: (← resolveVariants s owner tags more)

/-- A union; it has at least one variant. -/
def resolveUnion (s : Scope) (name : String) (variants : List Package.Variant)
    (reserved : List Tag) : Resolved UnionType := do
  if variants.isEmpty then .error (.emptyUnion name)
  else
    checkUnique name (variants.map (·.name))
    return ⟨name, sortByTag (·.tag) (← resolveVariants s name (.start reserved) variants)⟩

/-- The default of a field. -/
def resolveDefault (enums : List EnumType) (owner : String) (f : Package.Field)
    (type : TypeRef) : Resolved (Option Value) :=
  match f.literal with
  | none => .ok none
  | some literal =>
    match literalValue enums type literal with
    | .ok value => .ok (some value)
    | .error fault => .error (.defaultMismatch owner f.name (typeExprName f.type) fault)

/-- Fields in the order of declaration, tags given so far. -/
def resolveFieldList (s : Scope) (enums : List EnumType) (owner : String) :
    Tagging → List Package.Field → Resolved (List Field)
  | _, [] => .ok []
  | tags, f :: more => do
    let (tag, tags) ← nextTag owner tags f.name f.tag
    let type ← s.typeOf owner f.type
    let default ← resolveDefault enums owner f type
    return ⟨f.name, tag, type, f.optional, default⟩
      :: (← resolveFieldList s enums owner tags more)

/-- A struct. -/
def resolveStruct (s : Scope) (enums : List EnumType) (name : String)
    (fields : List Package.Field) (reserved : List Tag) : Resolved StructType := do
  checkUnique name (fields.map (·.name))
  return ⟨name, sortByTag (·.tag) (← resolveFieldList s enums name (.start reserved) fields)⟩

/-- The names and structs while interfaces are resolved. -/
structure Growing where
  scope : Scope
  structs : List StructType

/-- Add a parameter list as a struct; the result is its position. -/
def addParameters (enums : List EnumType) (g : Growing) (name : String)
    (parameters : List Package.Field) : Resolved (Nat × Growing) := do
  let scope ← g.scope.claim name
  let struct ← resolveStruct scope enums name parameters []
  let id := g.structs.length
  return (id, ⟨scope.addType name (.struct id), g.structs ++ [struct]⟩)

/-- Add a parameter list that may be left out. -/
def addParameters? (enums : List EnumType) (g : Growing) (name : String) :
    Option (List Package.Field) → Resolved (Option Nat × Growing)
  | none => .ok (none, g)
  | some parameters => do
    let (id, g) ← addParameters enums g name parameters
    return (some id, g)

/-- The methods of an interface in the order of declaration, tags given so far. -/
def resolveMethods (enums : List EnumType) (owner : String) :
    Growing → Tagging → List Package.Method → Resolved (List Method × Growing)
  | g, _, [] => .ok ([], g)
  | g, tags, m :: more => do
    let (tag, tags) ← nextTag owner tags m.name m.tag
    let stem := owner ++ "." ++ m.name
    let (args, g) ← addParameters enums g (stem ++ "Args") m.input
    let (reply, g) ← addParameters? enums g (stem ++ "Res") m.output
    let (exception, g) ← addParameters? enums g (stem ++ "Exn") m.failure
    let (methods, g) ← resolveMethods enums owner g tags more
    return (⟨m.name, tag, args, reply, exception⟩ :: methods, g)

/-- An interface, and what its parameter lists add. -/
def resolveInterface (enums : List EnumType) (g : Growing) (name : String)
    (methods : List Package.Method) : Resolved (InterfaceType × Growing) := do
  checkUnique name (methods.map (·.name))
  let (methods, g) ← resolveMethods enums name g (.start []) methods
  return (⟨name, sortByTag (·.tag) methods⟩, g)

/-- The members of a module in the order of declaration, tags given so far. -/
def resolveMembers (s : Scope) (owner : String) :
    Tagging → List Package.Member → Resolved (List Member)
  | _, [] => .ok []
  | tags, m :: more => do
    let (tag, tags) ← nextTag owner tags m.name m.tag
    match s.interfaces.lookup m.interface with
    | none => .error (.unknownInterface owner m.interface)
    | some id => return ⟨m.name, tag, id⟩ :: (← resolveMembers s owner tags more)

/-- A module. -/
def resolveModule (s : Scope) (name : String) (members : List Package.Member) :
    Resolved ModuleType := do
  checkUnique name (members.map (·.name))
  return ⟨name, sortByTag (·.tag) (← resolveMembers s name (.start []) members)⟩

/-- The enums among declarations. -/
def resolveEnums : List Package.Declaration → Resolved (List EnumType)
  | [] => .ok []
  | .enum name labels :: more => do
    let e ← resolveEnum name labels
    return e :: (← resolveEnums more)
  | _ :: more => resolveEnums more

/-- The unions among declarations. -/
def resolveUnions (s : Scope) : List Package.Declaration → Resolved (List UnionType)
  | [] => .ok []
  | .union name variants reserved :: more => do
    let u ← resolveUnion s name variants reserved
    return u :: (← resolveUnions s more)
  | _ :: more => resolveUnions s more

/-- The structs among declarations. -/
def resolveStructs (s : Scope) (enums : List EnumType) :
    List Package.Declaration → Resolved (List StructType)
  | [] => .ok []
  | .struct name fields reserved :: more => do
    let t ← resolveStruct s enums name fields reserved
    return t :: (← resolveStructs s enums more)
  | _ :: more => resolveStructs s enums more

/-- The interfaces among declarations, and what their parameter lists add. -/
def resolveInterfaces (enums : List EnumType) :
    Growing → List Package.Declaration → Resolved (List InterfaceType × Growing)
  | g, [] => .ok ([], g)
  | g, .interface name methods :: more => do
    let (i, g) ← resolveInterface enums g name methods
    let (interfaces, g) ← resolveInterfaces enums g more
    return (i :: interfaces, g)
  | g, _ :: more => resolveInterfaces enums g more

/-- The modules among declarations. -/
def resolveModules (s : Scope) : List Package.Declaration → Resolved (List ModuleType)
  | [] => .ok []
  | .module name members :: more => do
    let m ← resolveModule s name members
    return m :: (← resolveModules s more)
  | _ :: more => resolveModules s more

/-- The canonical bytes of a package. -/
def canonicalBytes (p : Package) : Bytes := Utf8.encode p.toJson.canonical

/-- The fingerprint of a package: equal packages, however written, have equal ones. -/
def fingerprintOf (p : Package) : Bytes := Sha256.digest (canonicalBytes p)

/-- The text of a fingerprint. -/
def fingerprintText (fingerprint : Bytes) : String := "sha256:" ++ Bytes.toHex fingerprint

/-- The schema of a package. -/
def resolve (p : Package) : Resolved Schema := do
  let ds := p.declarations
  let scope ← declare ⟨[], [], []⟩ ⟨0, 0, 0, 0⟩ ds
  let enums ← resolveEnums ds
  let unions ← resolveUnions scope ds
  let structs ← resolveStructs scope enums ds
  let (interfaces, g) ← resolveInterfaces enums ⟨scope, structs⟩ ds
  let modules ← resolveModules g.scope ds
  match firstCycle? g.structs unions with
  | some path => .error (.cycle path)
  | none =>
    return {
      package := p.name
      fingerprint := fingerprintOf p
      enums, unions
      structs := g.structs
      interfaces, modules
      typeNames := g.scope.types
      interfaceNames := g.scope.interfaces }

end Schema

end SchemaRpc
