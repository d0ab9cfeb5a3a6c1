/-
# Values

A value is an instance of a schema type; it does not know its type.  A record, the value of a
struct, keeps the state of each of its fields by tag, in ascending order of the tags:

* *present*: sent, with a value;
* *null*: sent as an explicit null;
* *defaulted*: not sent, the value was filled in from the schema;
* *absent*: not sent and without a value; absence is never stored.
-/
import SchemaRpc.Ascending
import SchemaRpc.Bytes
import SchemaRpc.Floating.Binary
import SchemaRpc.Value.Primitive

namespace SchemaRpc

/-- The number that identifies a member of a struct, union, interface or module. -/
abbrev Tag := Fin 65536

namespace Tag

/-- The tag with a number, counted modulo the number of tags. -/
def ofNat (n : Nat) : Tag := ⟨n % 65536, Nat.mod_lt n (by decide)⟩

/-- The tag of what needs none. -/
def zero : Tag := ofNat 0

/-- The tag with a number, if there is one. -/
def ofInt? (n : Int) : Option Tag :=
  if n < 0 then none
  else if h : n.toNat < 65536 then some ⟨n.toNat, h⟩
  else none

end Tag

/-- Tags can be the keys of an ascending map. -/
instance tagLtTrans : Trans (α := Tag) (· < ·) (· < ·) (· < ·) := ⟨Fin.lt_trans⟩

/-- The stored state of one field of a record. -/
inductive Slot (α : Type) where
  | present (value : α)
  | null
  | defaulted (value : α)
deriving DecidableEq

/-- A value. An enum value is the integer of its label. -/
inductive Value where
  | bool (b : Bool)
  | int (kind : IntKind) (n : kind.Ranged)
  | f32 (x : Binary32)
  | f64 (x : Binary64)
  | string (text : String)
  | bytes (bytes : Bytes)
  | enum (n : IntKind.i32.Ranged)
  | union (tag : Tag) (payload : Value)
  | struct (slots : Ascending Tag (Slot Value) none)
  | array (items : List Value)

/-- The fields of a record whose tags lie above `floor`. -/
abbrev Slots (floor : Option Tag) := Ascending Tag (Slot Value) floor

/-- The value of a struct: the states of its fields by tag. -/
abbrev Record := Slots none

/-- The state of one field of a record, absence included. -/
inductive FieldState where
  | present (value : Value)
  | null
  | defaulted (value : Value)
  | absent

/-- The state that a stored slot, or none, stands for. -/
def FieldState.ofSlot : Option (Slot Value) → FieldState
  | some (.present value) => .present value
  | some .null => .null
  | some (.defaulted value) => .defaulted value
  | none => .absent

/-- The slot that a state is stored as; absence is not stored. -/
def FieldState.toSlot : FieldState → Option (Slot Value)
  | .present value => some (.present value)
  | .null => some .null
  | .defaulted value => some (.defaulted value)
  | .absent => none

/-- The usable value of a state: present or defaulted. -/
def FieldState.value? : FieldState → Option Value
  | .present value | .defaulted value => some value
  | .null | .absent => none

/-- Whether a field in this state is sent. -/
def FieldState.isSent : FieldState → Bool
  | .present _ | .null => true
  | .defaulted _ | .absent => false

@[simp] theorem FieldState.ofSlot_toSlot (s : FieldState) : ofSlot s.toSlot = s := by
  cases s <;> rfl

@[simp] theorem FieldState.toSlot_ofSlot (s : Option (Slot Value)) : (ofSlot s).toSlot = s := by
  rcases s with _ | _ | _ | _ <;> rfl

namespace Record

/-- The record without fields. -/
def empty : Record := .nil

/-- The state of a field. -/
def get (r : Record) (tag : Tag) : FieldState := .ofSlot (r.find? tag)

/-- The usable value of a field. -/
def value? (r : Record) (tag : Tag) : Option Value := (r.get tag).value?

/-- Set the state of a field; absence removes it. -/
def set (r : Record) (tag : Tag) (state : FieldState) : Record :=
  match state.toSlot with
  | some slot => Ascending.insert r tag slot
  | none => Ascending.erase r tag

/-- Set a field to a present value. -/
def withValue (r : Record) (tag : Tag) (value : Value) : Record := r.set tag (.present value)

/-- Set a field to an explicit null. -/
def withNull (r : Record) (tag : Tag) : Record := r.set tag .null

/-- Remove a field and return the state that it had. -/
def take (r : Record) (tag : Tag) : FieldState × Record := (r.get tag, Ascending.erase r tag)

/-- The tags of the stored fields, in ascending order. -/
def tags (r : Record) : List Tag := Ascending.keys r

/-- The record of a list of states, set one after the other. -/
def ofList (states : List (Tag × FieldState)) : Record :=
  states.foldl (fun r s => r.set s.1 s.2) empty

/-- The stored fields and their states, in ascending order of the tags. -/
def toStates (r : Record) : List (Tag × FieldState) :=
  (Ascending.toList r).map fun (tag, slot) => (tag, .ofSlot (some slot))

end Record

namespace Value

/-- The word for the kind of a value. -/
def kindName : Value → String
  | .bool _ => "bool"
  | .int kind _ => kind.name
  | .f32 _ => "f32"
  | .f64 _ => "f64"
  | .string _ => "string"
  | .bytes _ => "bytes"
  | .enum _ => "enum"
  | .union .. => "union"
  | .struct _ => "struct"
  | .array _ => "array"

/-- An integer as a value of a primitive type, if that is an integer type that holds it. -/
def ofInteger? : Primitive → Int → Option Value
  | .int kind, n => (kind.ofInt? n).map (.int kind)
  | _, _ => none

/-- The integer of an integer value of any type. -/
def asInteger : Value → Option Int
  | .int _ n => some n.val
  | _ => none

/-- The integer of an integer value, if it is one of `kind`. -/
def asRanged (kind : IntKind) (value : Value) : Option kind.Ranged :=
  value.asInteger.bind kind.ofInt?

/-- The number of a floating-point value of either type. -/
def asFloat : Value → Option Binary64
  | .f32 x => some x.widen
  | .f64 x => some x
  | _ => none

/-- The truth value of a `bool`. -/
def asBool : Value → Option Bool
  | .bool b => some b
  | _ => none

/-- The text of a `string`. -/
def asString : Value → Option String
  | .string text => some text
  | _ => none

/-- The integer of an enum value. -/
def asEnum : Value → Option Int
  | .enum n => some n.val
  | _ => none

/-- The record of a struct value. -/
def asRecord : Value → Option Record
  | .struct r => some r
  | _ => none

/-- The active variant and payload of a union value. -/
def asUnion : Value → Option (Tag × Value)
  | .union tag payload => some (tag, payload)
  | _ => none

/-- The items of an array value. -/
def asArray : Value → Option (List Value)
  | .array items => some items
  | _ => none

end Value

end SchemaRpc
