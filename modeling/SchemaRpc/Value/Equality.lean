/-
# Equality of values as programs see it

Two values are equal if they have the same shape and content, floating-point numbers being
compared as numbers: a NaN differs from itself and the two zeros agree.  Equality of values as
elements of the type, in which numbers are bit patterns, is the `=` of the logic.
-/
import SchemaRpc.Value.Basic

namespace SchemaRpc

namespace Value

mutual

/-- Equality of values. -/
def ieeeEq : Value → Value → Bool
  | .bool a, .bool b => a == b
  | .int k m, .int l n => k == l && m.val == n.val
  | .f32 x, .f32 y => x.ieeeEq y
  | .f64 x, .f64 y => x.ieeeEq y
  | .string a, .string b => a == b
  | .bytes a, .bytes b => a == b
  | .enum m, .enum n => m.val == n.val
  | .union s a, .union t b => s == t && a.ieeeEq b
  | .struct r, .struct s => slotsEq r s
  | .array a, .array b => itemsEq a b
  | _, _ => false

/-- Equality of the states of a field. -/
def slotEq : Slot Value → Slot Value → Bool
  | .present a, .present b => a.ieeeEq b
  | .null, .null => true
  | .defaulted a, .defaulted b => a.ieeeEq b
  | _, _ => false

/-- Equality of records: the same tags with equal states. -/
def slotsEq : {f g : Option Tag} → Slots f → Slots g → Bool
  | _, _, .nil, .nil => true
  | _, _, .cons s _ a r, .cons t _ b q => s == t && slotEq a b && slotsEq r q
  | _, _, _, _ => false

/-- Equality of arrays, item by item. -/
def itemsEq : List Value → List Value → Bool
  | [], [] => true
  | a :: as, b :: bs => a.ieeeEq b && itemsEq as bs
  | _, _ => false

end

end Value

end SchemaRpc
