/-
# Primitive types

The scalar types that a package can name without declaring them, and the integers that each
integer type holds.
-/

namespace SchemaRpc

/-- The integer types. -/
inductive IntKind where
  | i8 | u8 | i16 | u16 | i32 | u32 | i64 | u64
deriving DecidableEq

namespace IntKind

/-- The name of an integer type in a package. -/
def name : IntKind → String
  | .i8 => "i8"
  | .u8 => "u8"
  | .i16 => "i16"
  | .u16 => "u16"
  | .i32 => "i32"
  | .u32 => "u32"
  | .i64 => "i64"
  | .u64 => "u64"

/-- The least integer of a type. -/
def least : IntKind → Int
  | .i8 => -128
  | .i16 => -32768
  | .i32 => -2147483648
  | .i64 => -9223372036854775808
  | .u8 | .u16 | .u32 | .u64 => 0

/-- The greatest integer of a type. -/
def greatest : IntKind → Int
  | .i8 => 127
  | .u8 => 255
  | .i16 => 32767
  | .u16 => 65535
  | .i32 => 2147483647
  | .u32 => 4294967295
  | .i64 => 9223372036854775807
  | .u64 => 18446744073709551615

/-- Whether an integer type holds an integer. -/
def Holds (kind : IntKind) (n : Int) : Prop := kind.least ≤ n ∧ n ≤ kind.greatest

instance (kind : IntKind) (n : Int) : Decidable (kind.Holds n) :=
  inferInstanceAs (Decidable (_ ∧ _))

/-- The integers of a type. -/
structure Ranged (kind : IntKind) where
  val : Int
  holds : kind.Holds val
deriving DecidableEq

/-- An integer as one of a type, if the type holds it. -/
def ofInt? (kind : IntKind) (n : Int) : Option kind.Ranged :=
  if h : kind.Holds n then some ⟨n, h⟩ else none

theorem Ranged.ext {kind : IntKind} {m n : kind.Ranged} (h : m.val = n.val) : m = n := by
  cases m; cases n; cases h; rfl

theorem ofInt?_eq_some_iff {kind : IntKind} {n : Int} {r : kind.Ranged} :
    kind.ofInt? n = some r ↔ n = r.val := by
  unfold ofInt?
  constructor
  · intro h
    split at h
    · cases h; rfl
    · cases h
  · rintro rfl
    simp [r.holds]

theorem ofInt?_eq_none_iff {kind : IntKind} {n : Int} :
    kind.ofInt? n = none ↔ ¬ kind.Holds n := by
  simp [ofInt?]

end IntKind

/-- The primitive types. -/
inductive Primitive where
  | bool
  | int (kind : IntKind)
  | f32
  | f64
  | string
  | bytes
deriving DecidableEq

namespace Primitive

/-- The name of a primitive type in a package. -/
def name : Primitive → String
  | .bool => "bool"
  | .int kind => kind.name
  | .f32 => "f32"
  | .f64 => "f64"
  | .string => "string"
  | .bytes => "bytes"

/-- All primitive types, in their customary order. -/
def all : List Primitive :=
  [.bool, .int .i8, .int .u8, .int .i16, .int .u16, .int .i32, .int .u32, .int .i64, .int .u64,
    .f32, .f64, .string, .bytes]

/-- The primitive type of a name. -/
def ofName? (name : String) : Option Primitive := all.find? (·.name = name)

/-- The least and the greatest integer of an integer type. -/
def range? : Primitive → Option (Int × Int)
  | .int kind => some (kind.least, kind.greatest)
  | _ => none

/-- Whether the type is an integer type. -/
def isInteger (p : Primitive) : Bool := p.range?.isSome

/-- Whether the type is a floating-point type. -/
def isFloat : Primitive → Bool
  | .f32 | .f64 => true
  | _ => false

/-- Every primitive type is in the list of all. -/
theorem mem_all (p : Primitive) : p ∈ all := by
  cases p with
  | int kind => cases kind <;> decide
  | _ => decide

/-- A primitive type is found by its name. -/
theorem ofName?_name (p : Primitive) : ofName? p.name = some p := by
  cases p with
  | int kind => cases kind <;> decide
  | _ => decide

/-- A name finds only the type of that name. -/
theorem name_of_ofName? {name : String} {p : Primitive} (h : ofName? name = some p) :
    p.name = name := by
  simpa using List.find?_some h

end Primitive

end SchemaRpc
