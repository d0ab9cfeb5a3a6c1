/-
# Default values

The value that a JSON literal denotes at a type.  An enum takes a label or the value of one, an
array takes an array of fitting literals, a byte string takes a text and stands for its UTF-8
bytes, and a floating-point type takes every number, rounded.  Structs and unions have no
literals.
-/
import SchemaRpc.Json.Text
import SchemaRpc.Schema.Basic
import SchemaRpc.Utf8

namespace SchemaRpc

namespace Schema

/-- Why a literal does not fit a type. -/
inductive LiteralFault where
  /-- The text is not a label of the enum. -/
  | notLabel (label enum : String)
  /-- The number, as written, is not a 32-bit integer. -/
  | notEnumValue (number : String)
  /-- The integer is not the value of a label of the enum. -/
  | notMember (value : Int) (enum : String)
  | expectedLabel (found : String)
  | expectedArray (found : String)
  | expectedPrimitive (expected : Primitive) (found : String)
  | outOfRange (value : Int) (kind : IntKind)
  | noLiterals
  /-- The item at a position does not fit. -/
  | item (index : Nat) (fault : LiteralFault)
deriving DecidableEq

/-- The wording of a fault. -/
def LiteralFault.message : LiteralFault → String
  | .notLabel label enum => s!"'{label}' is not a label of {enum}"
  | .notEnumValue number => s!"{number} is not an enum value"
  | .notMember value enum => s!"{value} is not a value of {enum}"
  | .expectedLabel found => s!"expected a label, found {found}"
  | .expectedArray found => s!"expected an array, found {found}"
  | .expectedPrimitive expected found => s!"expected {expected.name}, found {found}"
  | .outOfRange value kind => s!"{value} is out of range for {kind.name}"
  | .noLiterals => "struct and union fields cannot have defaults"
  | .item index fault => s!"[{index}]: {fault.message}"

/-- The floating-point number of a numeric literal. -/
def literalNumber? : Json → Option Binary64
  | .int n => some (Binary64.ofInt n)
  | .float x => some x
  | _ => none

/-- The value of a literal at a primitive type. -/
def primitiveLiteral (p : Primitive) (literal : Json) : Except LiteralFault Value :=
  match p, literal with
  | .bool, .bool b => .ok (.bool b)
  | .int kind, .int n =>
    match kind.ofInt? n with
    | some n => .ok (.int kind n)
    | none => .error (.outOfRange n kind)
  | .string, .string text => .ok (.string text)
  | .bytes, .string text => .ok (.bytes (Utf8.encode text))
  | .f32, _ =>
    match literalNumber? literal with
    | some x => .ok (.f32 x.narrow)
    | none => .error (.expectedPrimitive p literal.kindName)
  | .f64, _ =>
    match literalNumber? literal with
    | some x => .ok (.f64 x)
    | none => .error (.expectedPrimitive p literal.kindName)
  | _, _ => .error (.expectedPrimitive p literal.kindName)

/-- The value of a literal at an enum. -/
def enumLiteral (e : EnumType) : Json → Except LiteralFault Value
  | .string label =>
    match e.valueOf? label with
    | some value => .ok (.enum value)
    | none => .error (.notLabel label e.name)
  | .int n =>
    match IntKind.i32.ofInt? n with
    | some value =>
      if e.contains value then .ok (.enum value) else .error (.notMember n e.name)
    | none => .error (.notEnumValue (Json.int n).compact)
  | .float x => .error (.notEnumValue (Json.float x).compact)
  | other => .error (.expectedLabel other.kindName)

/-- The values of the items of an array literal, from a position on. -/
def itemLiterals (convert : Json → Except LiteralFault Value) (index : Nat) :
    List Json → Except LiteralFault (List Value)
  | [] => .ok []
  | literal :: more =>
    match convert literal with
    | .error fault => .error (.item index fault)
    | .ok value => (itemLiterals convert (index + 1) more).map (value :: ·)

/-- The value of a literal at a type, given the enums of the schema. -/
def literalValue (enums : List EnumType) : TypeRef → Json → Except LiteralFault Value
  | .prim p, literal => primitiveLiteral p literal
  | .enum id, literal => enumLiteral (enums[id]?.getD ⟨"", []⟩) literal
  | .array item, .array literals => (itemLiterals (literalValue enums item) 0 literals).map .array
  | .array _, other => .error (.expectedArray other.kindName)
  | .struct _, _ => .error .noLiterals
  | .union _, _ => .error .noLiterals

end Schema

end SchemaRpc
