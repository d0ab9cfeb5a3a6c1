/-
# Member headers

Encoded data is a sequence of members, and every member begins with a header: three bits for
its kind and five for its tag.  Tags up to 29 stand in the first byte itself; 30 announces
one more byte that holds the tag, 31 two more.  The kind alone says how the rest of the
member is laid out, so a reader can pass over members that it does not know.
-/
import SchemaRpc.Value.Basic

namespace SchemaRpc

namespace Wire

/-- The layout of a member after its header. -/
inductive Kind where
  /-- A length of one byte, then that many bytes. -/
  | block1
  /-- A length of two bytes, then that many bytes. -/
  | block2
  /-- A length of four bytes, then that many bytes. -/
  | block4
  /-- Eight bytes. -/
  | quad
  /-- A signed integer of one byte. -/
  | int1
  /-- A signed integer of two bytes. -/
  | int2
  /-- A signed integer of four bytes, or four bytes of another meaning. -/
  | int4
  /-- A count of four bytes, then that many members with tag zero. -/
  | repeated
deriving DecidableEq

namespace Kind

/-- The three bits of a kind. -/
def code : Kind → Nat
  | .block1 => 0
  | .block2 => 1
  | .block4 => 2
  | .quad => 3
  | .int1 => 4
  | .int2 => 5
  | .int4 => 6
  | .repeated => 7

/-- The kind of three bits. -/
def ofCode : Nat → Kind
  | 0 => .block1
  | 1 => .block2
  | 2 => .block4
  | 3 => .quad
  | 4 => .int1
  | 5 => .int2
  | 6 => .int4
  | _ => .repeated

/-- The name of a kind in messages. -/
def name : Kind → String
  | .block1 => "BLK1"
  | .block2 => "BLK2"
  | .block4 => "BLK4"
  | .quad => "QUAD"
  | .int1 => "INT1"
  | .int2 => "INT2"
  | .int4 => "INT4"
  | .repeated => "REPEAT"

/-- All kinds, by their bits. -/
def all : List Kind := [.block1, .block2, .block4, .quad, .int1, .int2, .int4, .repeated]

/-- The kind of a name. -/
def ofName? (name : String) : Option Kind := all.find? (·.name = name)

/-- Whether the rest of the member is a length and that many bytes. -/
def isBlock : Kind → Bool
  | .block1 | .block2 | .block4 => true
  | _ => false

/-- Whether the rest of the member can be read as an integer. -/
def isInteger : Kind → Bool
  | .quad | .int1 | .int2 | .int4 => true
  | _ => false

@[simp] theorem ofCode_code (kind : Kind) : ofCode kind.code = kind := by cases kind <;> rfl

theorem code_lt (kind : Kind) : kind.code < 8 := by cases kind <;> decide

end Kind

/-- The kind and tag of a member. -/
structure Header where
  kind : Kind
  tag : Tag
deriving DecidableEq

/-- The kind in the high bits of a first byte. -/
def kindOf (first : UInt8) : Kind := .ofCode (first.toNat / 32)

/-- The tag bits of a first byte. -/
def tagBits (first : UInt8) : Nat := first.toNat % 32

/-- How many bytes follow the first one in the header of a tag. -/
def extraTagBytes (tag : Tag) : Nat :=
  if tag.val ≤ 29 then 0 else if tag.val ≤ 255 then 1 else 2

/-- A first byte. -/
def firstByte (kind : Kind) (bits : Nat) : UInt8 := UInt8.ofNat (32 * kind.code + bits)

/-- The bytes of a header. -/
def Header.bytes (h : Header) : Bytes :=
  match extraTagBytes h.tag with
  | 0 => [firstByte h.kind h.tag.val]
  | 1 => [firstByte h.kind 30, UInt8.ofNat h.tag.val]
  | _ => firstByte h.kind 31 :: Bytes.ofNat 2 h.tag.val

theorem toNat_firstByte {kind : Kind} {bits : Nat} (h : bits < 32) :
    (firstByte kind bits).toNat = 32 * kind.code + bits := by
  have := kind.code_lt
  simp only [firstByte, UInt8.toNat_ofNat']
  omega

@[simp] theorem kindOf_firstByte {kind : Kind} {bits : Nat} (h : bits < 32) :
    kindOf (firstByte kind bits) = kind := by
  rw [kindOf, toNat_firstByte h, show (32 * kind.code + bits) / 32 = kind.code by omega,
    Kind.ofCode_code]

@[simp] theorem tagBits_firstByte {kind : Kind} {bits : Nat} (h : bits < 32) :
    tagBits (firstByte kind bits) = bits := by
  rw [tagBits, toNat_firstByte h]
  omega

end Wire

end SchemaRpc
