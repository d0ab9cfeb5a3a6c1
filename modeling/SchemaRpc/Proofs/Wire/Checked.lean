/-
# Reading with all bounds checked

A reader holds the bytes of its range, so it cannot read beyond them.  The same operations on
places in a buffer can go wrong in more ways: a subtraction can fall below zero, an index can miss
the buffer, and a range can reach beyond the one it was taken from.  Here the operations are
written for places, with a check before every such step, and a failed check is a `Trap`.
-/
import SchemaRpc.Wire.Reader

namespace SchemaRpc

namespace Wire

/-- A place in a buffer and the end of the range that it belongs to. -/
structure Span where
  pos : Nat
  stop : Nat

/-- What a checked run stops at. -/
inductive Trap where
  /-- A subtraction that falls below zero. -/
  | underflow
  /-- An index or slice outside of the bytes. -/
  | outOfBounds
  /-- A place behind the end of its range, or a range beyond the buffer or its parent. -/
  | escapes
  /-- A loop that takes more turns than the buffer has bytes. -/
  | endless

/-- Operations on a place, which end with a result, an error or a trap. -/
abbrev Checked (ε : Type) := EStateM (Trap ⊕ ε) Span

namespace Checked

variable {ε α : Type}

/-- Stop because a check failed. -/
def trap (t : Trap) : Checked ε α := throw (.inl t)

/-- Fail with an error. -/
def fail (e : ε) : Checked ε α := throw (.inr e)

/-- Subtraction of no more than there is. -/
def minus (m n : Nat) : Checked ε Nat := if n ≤ m then return m - n else trap .underflow

/-- The bytes from one place to another. -/
def slice (bytes : Bytes) (start stop : Nat) : Checked ε Bytes :=
  if start ≤ stop ∧ stop ≤ bytes.length then return (bytes.drop start).take (stop - start)
  else trap .outOfBounds

/-- The byte at a place. -/
def index (bytes : Bytes) (i : Nat) : Checked ε UInt8 :=
  match bytes[i]? with
  | some byte => return byte
  | none => trap .outOfBounds

/-- Go on to a later place of the range. -/
def goTo (b : Bytes) (pos : Nat) : Checked ε Unit := do
  let s ← get
  if pos ≤ s.stop ∧ s.stop ≤ b.length then set (⟨pos, s.stop⟩ : Span) else trap .escapes

/-- A range inside of another one. -/
def nested (outer : Span) (start stop : Nat) : Checked ε Span :=
  if outer.pos ≤ start ∧ start ≤ stop ∧ stop ≤ outer.stop then return ⟨start, stop⟩
  else trap .escapes

/-- How many bytes are left. -/
def remaining : Checked ε Nat := do
  let s ← get
  minus s.stop s.pos

section

variable (b : Bytes)

/-- The next `length` bytes. -/
def take (length : Nat) : Checked FrameError Bytes := do
  let start ← get
  let left ← remaining
  if left < length then fail ⟨start.pos, .short length left⟩
  else
    let bytes ← slice b start.pos (start.pos + length)
    goTo b (start.pos + length)
    return bytes

/-- The next `length` bytes for a place that holds just as many. -/
def takeExactly (length : Nat) : Checked FrameError Bytes := do
  let bytes ← take b length
  if bytes.length = length then return bytes else trap .outOfBounds

/-- The next `width` bytes as a number, least significant first. -/
def takeNat (width : Nat) : Checked FrameError Nat := do
  return Bytes.toNat (← takeExactly b width)

/-- The next `width` bytes as a signed integer. -/
def takeInt (width : Nat) : Checked FrameError Int := do
  return Bytes.toInt (← takeExactly b width)

/-- The next byte. -/
def takeByte : Checked FrameError UInt8 := do return UInt8.ofNat (← takeNat b 1)

/-- A header. -/
def readHeader : Checked FrameError Header := do
  let first ← takeByte b
  if tagBits first < 30 then return ⟨kindOf first, .ofNat (tagBits first)⟩
  else if tagBits first = 30 then return ⟨kindOf first, .ofNat (← takeNat b 1)⟩
  else return ⟨kindOf first, .ofNat (← takeNat b 2)⟩

/-- Pass over an explicit null, if one follows its header, and say so. -/
def takeNull (kind : Kind) : Checked FrameError Bool := do
  let start ← get
  if kind = .block1 ∧ start.pos < start.stop then
    if (← index b start.pos) = 0 then
      goTo b (start.pos + 1)
      return true
    else return false
  else return false

/-- An integer of any layout. -/
def readInt (kind : Kind) : Checked FrameError Int := do
  match kind with
  | .int1 => takeInt b 1
  | .int2 => takeInt b 2
  | .int4 => takeInt b 4
  | .quad => takeInt b 8
  | found => fail ⟨(← get).pos, .notInteger found⟩

/-- Eight bytes. -/
def readQuad (kind : Kind) : Checked FrameError UInt64 := do
  match kind with
  | .quad => return UInt64.ofNat (← takeNat b 8)
  | found => fail ⟨(← get).pos, .notQuad found⟩

/-- A floating-point number of four bytes. -/
def readFloat32 (kind : Kind) : Checked FrameError Binary32 := do
  match kind with
  | .int4 => return ⟨UInt32.ofNat (← takeNat b 4)⟩
  | found => fail ⟨(← get).pos, .notInt4 found⟩

/-- A floating-point number of eight bytes. -/
def readFloat64 (kind : Kind) : Checked FrameError Binary64 := do return ⟨← readQuad b kind⟩

/-- The length of a block, or the count of an array. -/
def readLength (kind : Kind) : Checked FrameError Nat := do
  match kind with
  | .block1 => takeNat b 1
  | .block2 => takeNat b 2
  | .block4 | .repeated => takeNat b 4
  | found => fail ⟨(← get).pos, .notBlock found⟩

/-- A text or byte string without its closing zero byte. -/
def readBytes (kind : Kind) : Checked FrameError Bytes := do
  let start ← get
  let length ← readLength b kind
  if kind = .repeated ∨ length = 0 then fail ⟨start.pos, .emptyBlock⟩
  else
    let closed ← take b length
    let last ← minus length 1
    if (← index closed last) = 0 then slice closed 0 last
    else
      let after ← get
      fail ⟨← minus after.pos 1, .notClosed⟩

/-- The range of a nested block, which is passed over. -/
def readBlock (kind : Kind) : Checked FrameError Span := do
  let outer ← get
  if kind.isBlock then
    let length ← readLength b kind
    let start ← get
    let _ ← take b length
    nested outer start.pos (start.pos + length)
  else fail ⟨outer.pos, .notBlock kind⟩

/-- The count of an array; more items than bytes left cannot follow. -/
def readRepeat (kind : Kind) : Checked FrameError Nat := do
  let start ← get
  if kind = .repeated then
    let count ← readLength b kind
    let left ← remaining
    if left < count then fail ⟨start.pos, .tooManyItems count left⟩ else return count
  else fail ⟨start.pos, .notRepeat kind⟩

end

/-- Run an operation where errors are told in other words. -/
def mapError {ε' : Type} (f : ε → ε') (m : Checked ε α) : Checked ε' α := fun s =>
  match m s with
  | .ok a s => .ok a s
  | .error (.inl t) s => .error (.inl t) s
  | .error (.inr e) s => .error (.inr (f e)) s

section

variable (b : Bytes)

/-- Pass over `count` items of an array, each one by `skipItem`. -/
def skipItems (skipItem : Kind → Checked SkipError Unit) : (count : Nat) → Checked SkipError Unit
  | 0 => return ()
  | count + 1 => do
    let start ← get
    let header ← mapError .frame (readHeader b)
    if header.tag ≠ 0 then fail (.frame ⟨start.pos, .taggedItem⟩)
    else
      skipItem header.kind
      skipItems skipItem count

/-- Pass over a member whose header has been read; arrays may nest `depth` deep. -/
def skip : (depth : Nat) → Kind → Checked SkipError Unit
  | _, .int1 => do let _ ← mapError .frame (take b 1)
  | _, .int2 => do let _ ← mapError .frame (take b 2)
  | _, .int4 => do let _ ← mapError .frame (take b 4)
  | _, .quad => do let _ ← mapError .frame (take b 8)
  | _, .block1 => do let _ ← mapError .frame (readBlock b .block1)
  | _, .block2 => do let _ ← mapError .frame (readBlock b .block2)
  | _, .block4 => do let _ ← mapError .frame (readBlock b .block4)
  | 0, .repeated => fail .tooDeep
  | depth + 1, .repeated => do
    let count ← mapError .frame (readRepeat b .repeated)
    skipItems b (skip depth) count

end

end Checked

end Wire

end SchemaRpc
