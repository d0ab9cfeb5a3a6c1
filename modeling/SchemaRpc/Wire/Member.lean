/-
# Written members

The bytes of a member for each thing that can be sent.  An integer takes the smallest signed
layout that holds it, and eight bytes otherwise; text and byte strings are blocks that end
with a zero byte, which their length counts; a null is a block of length zero; nested members
form a block with a length of four bytes.  What does not fit its length has no written form.
-/
import SchemaRpc.Wire.Header

namespace SchemaRpc

namespace Wire

/-- The lengths and counts of four bytes lie below this number. -/
def lengthLimit : Nat := 4294967296

/-- A header for a kind and tag. -/
def header (kind : Kind) (tag : Tag) : Bytes := Header.bytes ⟨kind, tag⟩

/-- Eight bytes. -/
def writeQuad (tag : Tag) (bits : UInt64) : Bytes :=
  header .quad tag ++ Bytes.ofNat 8 bits.toNat

/-- An integer in the smallest layout that holds it; of an integer beyond eight bytes the low
eight are kept. -/
def writeInt (tag : Tag) (n : Int) : Bytes :=
  if IntKind.i8.Holds n then header .int1 tag ++ Bytes.ofInt 1 n
  else if IntKind.i16.Holds n then header .int2 tag ++ Bytes.ofInt 2 n
  else if IntKind.i32.Holds n then header .int4 tag ++ Bytes.ofInt 4 n
  else header .quad tag ++ Bytes.ofInt 8 n

/-- A floating-point number of four bytes. -/
def writeFloat32 (tag : Tag) (x : Binary32) : Bytes :=
  header .int4 tag ++ Bytes.ofNat 4 x.bits.toNat

/-- A floating-point number of eight bytes. -/
def writeFloat64 (tag : Tag) (x : Binary64) : Bytes := writeQuad tag x.bits

/-- The header and length of a block in its smallest layout. -/
def writeLength? (tag : Tag) (length : Nat) : Option Bytes :=
  if length < 256 then some (header .block1 tag ++ Bytes.ofNat 1 length)
  else if length < 65536 then some (header .block2 tag ++ Bytes.ofNat 2 length)
  else if length < lengthLimit then some (header .block4 tag ++ Bytes.ofNat 4 length)
  else none

/-- A byte string, closed by a zero byte. -/
def writeBytes? (tag : Tag) (bytes : Bytes) : Option Bytes :=
  (writeLength? tag (bytes.length + 1)).map fun front => front ++ (bytes ++ [0])

/-- The explicit null. -/
def writeNull (tag : Tag) : Bytes := header .block1 tag ++ [0]

/-- The front of an array with the given number of items, which follow with tag zero. -/
def writeRepeat? (tag : Tag) (count : Nat) : Option Bytes :=
  if count < lengthLimit then some (header .repeated tag ++ Bytes.ofNat 4 count) else none

/-- Nested members as one member. -/
def writeBlock? (tag : Tag) (body : Bytes) : Option Bytes :=
  if body.length < lengthLimit then
    some (header .block4 tag ++ Bytes.ofNat 4 body.length ++ body)
  else none

end Wire

end SchemaRpc
