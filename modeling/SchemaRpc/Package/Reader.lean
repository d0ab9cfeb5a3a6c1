/-
# Reading packages from JSON

The package that a JSON value describes.  A part with named components is an object, whose
other members are ignored, or an array that lists the components in order, where the ones at
the end that may be left out may be missing.  A component that is left out, or null where it may
be, has its plain meaning: no tag, no value, no literal.
-/
import SchemaRpc.Decimal.Notation
import SchemaRpc.Package.Basic

namespace SchemaRpc

namespace Package

/-- Why a value is no package. -/
inductive ReadError where
  /-- A floating-point number, even a whole one, stands where an integer of a type belongs. -/
  | notInteger (found : Binary64) (expected : IntKind)
  /-- Something else does not fit. -/
  | mismatch
deriving DecidableEq

/-- The text of a finite floating-point number without an exponent, always with a point. -/
def plainDecimal : Decimal.Layout := ⟨-400, 400, ".0", "", "0.0", "-0.0"⟩

/-- The wording of a failure. -/
def ReadError.message : ReadError → String
  | .notInteger found expected =>
    "invalid type: floating point `" ++ plainDecimal.write found ++ "`, expected " ++ expected.name
  | .mismatch => "the document does not describe a package"

/-- A result or the reason why there is none. -/
abbrev Read := Except ReadError

/-- A text. -/
def readText : Json → Read String
  | .string text => .ok text
  | _ => .error .mismatch

/-- A truth value. -/
def readBool : Json → Read Bool
  | .bool b => .ok b
  | _ => .error .mismatch

/-- A tag. -/
def readTag : Json → Read Tag
  | .int n =>
    match Tag.ofInt? n with
    | some tag => .ok tag
    | none => .error .mismatch
  | .float x => .error (.notInteger x .u16)
  | _ => .error .mismatch

/-- The value of a label. -/
def readLabelValue : Json → Read IntKind.i32.Ranged
  | .int n =>
    match IntKind.i32.ofInt? n with
    | some v => .ok v
    | none => .error .mismatch
  | .float x => .error (.notInteger x .i32)
  | _ => .error .mismatch

/-- Every item of an array. -/
def readList {α : Type} (read : Json → Read α) : Json → Read (List α)
  | .array items => items.mapM read
  | _ => .error .mismatch

/-- The components of a part by their names in order, the ones that are left out as none. -/
def components (names : List String) : Json → Read (List (Option Json))
  | .object members => .ok (names.map fun name => members.find? name)
  | .array items =>
    if items.length ≤ names.length then
      .ok (items.map some ++ List.replicate (names.length - items.length) none)
    else .error .mismatch
  | _ => .error .mismatch

/-- A component that has to be there. -/
def needed {α : Type} (read : Json → Read α) : Option Json → Read α
  | some value => read value
  | none => .error .mismatch

/-- A component that may be left out and then has a plain meaning. -/
def orElse {α : Type} (plain : α) (read : Json → Read α) : Option Json → Read α
  | some value => read value
  | none => .ok plain

/-- A component that may be left out or null. -/
def maybe {α : Type} (read : Json → Read α) : Option Json → Read (Option α)
  | none => .ok none
  | some .null => .ok none
  | some value => (read value).map some

mutual

/-- A type expression: a name, or an object with the member `array`. -/
def readTypeExpr : Json → Read TypeExpr
  | .string name => .ok (.named name)
  | .object members => (readArrayItem members).map .array
  | _ => .error .mismatch

/-- The type expression of the member `array`. -/
def readArrayItem : {floor : Option String} → Ascending String Json floor → Read TypeExpr
  | _, .nil => .error .mismatch
  | _, .cons name _ item more => if name = "array" then readTypeExpr item else readArrayItem more

end

/-- A label of an enum. -/
def readLabel (value : Json) : Read Label := do
  match ← components ["label", "value"] value with
  | [name, value] => return ⟨← needed readText name, ← maybe readLabelValue value⟩
  | _ => .error .mismatch

/-- A variant of a union. -/
def readVariant (value : Json) : Read Variant := do
  match ← components ["name", "type", "tag"] value with
  | [name, type, tag] =>
    let name ← needed readText name
    let tag ← maybe readTag tag
    return ⟨name, ← needed readTypeExpr type, tag⟩
  | _ => .error .mismatch

/-- A field. -/
def readField (value : Json) : Read Field := do
  match ← components ["name", "type", "optional", "tag", "default"] value with
  | [name, type, optional, tag, literal] =>
    let literal ← maybe .ok literal
    let name ← needed readText name
    let optional ← orElse false readBool optional
    let tag ← maybe readTag tag
    return ⟨name, ← needed readTypeExpr type, optional, tag, literal⟩
  | _ => .error .mismatch

/-- A method of an interface. -/
def readMethod (value : Json) : Read Method := do
  match ← components ["name", "tag", "in", "out", "throw"] value with
  | [name, tag, input, output, failure] =>
    let input ← orElse [] (readList readField) input
    let name ← needed readText name
    let output ← maybe (readList readField) output
    let tag ← maybe readTag tag
    return ⟨name, tag, input, output, ← maybe (readList readField) failure⟩
  | _ => .error .mismatch

/-- A member of a module. -/
def readMember (value : Json) : Read Member := do
  match ← components ["name", "interface", "tag"] value with
  | [name, interface, tag] =>
    return ⟨← needed readText name, ← needed readText interface, ← maybe readTag tag⟩
  | _ => .error .mismatch

/-- The kind of a declaration and the value without it: the member `kind` of an object, which
the rest need not drop, or the first item of an array. -/
def splitKind : Json → Read (String × Json)
  | .object members => do return (← needed readText (members.find? "kind"), .object members)
  | .array (kind :: rest) => do return (← readText kind, .array rest)
  | _ => .error .mismatch

/-- A declaration. -/
def readDeclaration (value : Json) : Read Declaration := do
  let (kind, contents) ← splitKind value
  if kind = "enum" then
    match ← components ["name", "values"] contents with
    | [name, labels] =>
      return .enum (← needed readText name) (← needed (readList readLabel) labels)
    | _ => .error .mismatch
  else if kind = "union" then
    match ← components ["name", "variants", "reserved"] contents with
    | [name, variants, reserved] =>
      let name ← needed readText name
      let reserved ← orElse [] (readList readTag) reserved
      return .union name (← needed (readList readVariant) variants) reserved
    | _ => .error .mismatch
  else if kind = "struct" then
    match ← components ["name", "fields", "reserved"] contents with
    | [name, fields, reserved] =>
      let fields ← orElse [] (readList readField) fields
      return .struct (← needed readText name) fields (← orElse [] (readList readTag) reserved)
    | _ => .error .mismatch
  else if kind = "interface" then
    match ← components ["name", "methods"] contents with
    | [name, methods] =>
      let methods ← needed (readList readMethod) methods
      return .interface (← needed readText name) methods
    | _ => .error .mismatch
  else if kind = "module" then
    match ← components ["name", "members"] contents with
    | [name, members] =>
      let members ← needed (readList readMember) members
      return .module (← needed readText name) members
    | _ => .error .mismatch
  else .error .mismatch

/-- A package. -/
def ofJson (value : Json) : Read Package := do
  match ← components ["package", "declarations"] value with
  | [name, declarations] =>
    let declarations ← orElse [] (readList readDeclaration) declarations
    return ⟨← needed readText name, declarations⟩
  | _ => .error .mismatch

end Package

end SchemaRpc
