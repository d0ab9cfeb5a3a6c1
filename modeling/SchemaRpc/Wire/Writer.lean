/-
# Writing members one after the other

A writer is the bytes written so far.  A nested block is opened with an empty length, which is
filled in when the block is closed; blocks may be closed in any order and again later, each
time with the number of bytes that follow the length by then.
-/
import SchemaRpc.Wire.Member

namespace SchemaRpc

namespace Wire

/-- The bytes written so far. -/
structure Writer where
  bytes : Bytes
deriving DecidableEq

/-- The place of a length that is still to be filled in. -/
structure OpenBlock where
  lengthAt : Nat
deriving DecidableEq

namespace Writer

/-- Nothing written. -/
def empty : Writer := ⟨[]⟩

/-- Write whole members or the front of one. -/
def append (w : Writer) (bytes : Bytes) : Writer := ⟨w.bytes ++ bytes⟩

/-- Open a nested block. -/
def openBlock (w : Writer) (tag : Tag) : OpenBlock × Writer :=
  let front := w.append (header .block4 tag)
  (⟨front.bytes.length⟩, front.append (Bytes.ofNat 4 0))

/-- Fill in the length of a block with the number of bytes after it. -/
def closeBlock? (w : Writer) (block : OpenBlock) : Option Writer :=
  let length := w.bytes.length - (block.lengthAt + 4)
  if length < lengthLimit then
    some ⟨w.bytes.take block.lengthAt ++ Bytes.ofNat 4 length ++ w.bytes.drop (block.lengthAt + 4)⟩
  else none

end Writer

end Wire

end SchemaRpc
