/-
# Enum numbering

The labels of an enum get their values in the order of their declaration.  An explicit value
wins; a label without one gets the previous label's value plus one, and zero if it is the
first.  No value is given twice, and none may lie beyond the 32-bit integers.
-/
import SchemaRpc.Value.Primitive

namespace SchemaRpc

namespace Schema

/-- Why a label gets no value. -/
inductive NumberFault where
  /-- The value would lie beyond the 32-bit integers. -/
  | overflow
  /-- An earlier label has the value. -/
  | taken (value : Int) (holder : String)
deriving DecidableEq

/-- The values given so far. -/
structure Numbering where
  /-- The values given so far and the labels that have them. -/
  given : List (Int × String)
  /-- The value of the next label without an explicit one. -/
  next : Int
deriving DecidableEq

namespace Numbering

/-- No values given. -/
def start : Numbering := ⟨[], 0⟩

/-- Give a value to a label unless another has it. -/
def give (n : Numbering) (label : String) (value : IntKind.i32.Ranged) :
    Except NumberFault (IntKind.i32.Ranged × Numbering) :=
  match n.given.lookup value.val with
  | some holder => .error (.taken value.val holder)
  | none => .ok (value, ⟨(value.val, label) :: n.given, value.val + 1⟩)

/-- The value of the next label and the values given after it. -/
def assign (n : Numbering) (label : String) :
    (explicit : Option IntKind.i32.Ranged) →
      Except NumberFault (IntKind.i32.Ranged × Numbering)
  | some value => n.give label value
  | none =>
    match IntKind.i32.ofInt? n.next with
    | some value => n.give label value
    | none => .error .overflow

end Numbering

end Schema

end SchemaRpc
