/-
# Reading members

A reader stands at an offset of a payload and holds the bytes from there to the end of its
range; a reader for a nested block keeps counting offsets from the start of the payload.
Every operation either succeeds or fails with a fault and its offset; a failed operation
leaves the reader where it stopped.
-/
import SchemaRpc.Wire.Header

namespace SchemaRpc

namespace Wire

/-- A place in a payload and the bytes from there to the end of the range. -/
structure Reader where
  offset : Nat
  rest : Bytes
deriving DecidableEq

/-- What is wrong with the framing of a member. -/
inductive Fault where
  /-- More bytes are needed than are left. -/
  | short (needed left : Nat)
  | notInteger (found : Kind)
  | notQuad (found : Kind)
  | notInt4 (found : Kind)
  | notBlock (found : Kind)
  | notRepeat (found : Kind)
  /-- A text or byte string without room for its closing byte. -/
  | emptyBlock
  /-- A text or byte string that does not end with a zero byte. -/
  | notClosed
  /-- More items are announced than bytes are left. -/
  | tooManyItems (count left : Nat)
  /-- An item of an array that is passed over has a tag. -/
  | taggedItem
deriving DecidableEq

/-- The wording of a fault. -/
def Fault.message : Fault → String
  | .short needed left => s!"need {needed} bytes, {left} left"
  | .notInteger found => s!"expected integer, found {found.name}"
  | .notQuad found => s!"expected QUAD, found {found.name}"
  | .notInt4 found => s!"expected INT4, found {found.name}"
  | .notBlock found => s!"expected block, found {found.name}"
  | .notRepeat found => s!"expected REPEAT, found {found.name}"
  | .emptyBlock => "expected non-empty block"
  | .notClosed => "missing trailing NUL"
  | .tooManyItems count left => s!"element count {count} exceeds {left} remaining bytes"
  | .taggedItem => "array element with non-zero tag"

/-- A fault and the offset at which it was found. -/
structure FrameError where
  offset : Nat
  fault : Fault
deriving DecidableEq

/-- Operations on a reader. -/
abbrev Reading := EStateM FrameError Reader

/-- Why a member could not be passed over. -/
inductive SkipError where
  | frame (error : FrameError)
  /-- Arrays are nested deeper than allowed. -/
  | tooDeep
deriving DecidableEq

namespace Reader

/-- A reader at the start of a payload. -/
def ofBytes (payload : Bytes) : Reader := ⟨0, payload⟩

/-- How many bytes are left. -/
def remaining (r : Reader) : Nat := r.rest.length

/-- Whether no bytes are left. -/
def isEmpty (r : Reader) : Bool := r.rest.isEmpty

/-- Whether a list has at least the given length; looks no further than that. -/
def hasAtLeast {α : Type} : Nat → List α → Bool
  | 0, _ => true
  | _ + 1, [] => false
  | n + 1, _ :: rest => hasAtLeast n rest

theorem hasAtLeast_iff {α : Type} (n : Nat) (l : List α) : hasAtLeast n l ↔ n ≤ l.length := by
  induction n generalizing l with
  | zero => simp [hasAtLeast]
  | succ n ih =>
    cases l with
    | nil => simp [hasAtLeast]
    | cons a l => simp [hasAtLeast, ih]

/-- Fail at an offset. -/
def failAt {α : Type} (offset : Nat) (fault : Fault) : Reading α := throw ⟨offset, fault⟩

/-- The next `length` bytes. -/
def take (length : Nat) : Reading Bytes := fun r =>
  if hasAtLeast length r.rest then
    .ok (r.rest.take length) ⟨r.offset + length, r.rest.drop length⟩
  else .error ⟨r.offset, .short length r.remaining⟩ r

/-- The next `width` bytes as a number, least significant first. -/
def takeNat (width : Nat) : Reading Nat := do return Bytes.toNat (← take width)

/-- The next `width` bytes as a signed integer. -/
def takeInt (width : Nat) : Reading Int := do return Bytes.toInt (← take width)

/-- The next byte. -/
def takeByte : Reading UInt8 := do return UInt8.ofNat (← takeNat 1)

/-- A header. -/
def readHeader : Reading Header := do
  let first ← takeByte
  if tagBits first < 30 then return ⟨kindOf first, .ofNat (tagBits first)⟩
  else if tagBits first = 30 then return ⟨kindOf first, .ofNat (← takeNat 1)⟩
  else return ⟨kindOf first, .ofNat (← takeNat 2)⟩

/-- Pass over an explicit null, if one follows its header, and say so. -/
def takeNull (kind : Kind) : Reading Bool := fun r =>
  match kind, r.rest with
  | .block1, b :: rest => if b = 0 then .ok true ⟨r.offset + 1, rest⟩ else .ok false r
  | _, _ => .ok false r

/-- An integer of any layout. -/
def readInt (kind : Kind) : Reading Int := do
  match kind with
  | .int1 => takeInt 1
  | .int2 => takeInt 2
  | .int4 => takeInt 4
  | .quad => takeInt 8
  | found => failAt (← get).offset (.notInteger found)

/-- Eight bytes. -/
def readQuad (kind : Kind) : Reading UInt64 := do
  match kind with
  | .quad => return UInt64.ofNat (← takeNat 8)
  | found => failAt (← get).offset (.notQuad found)

/-- A floating-point number of four bytes. -/
def readFloat32 (kind : Kind) : Reading Binary32 := do
  match kind with
  | .int4 => return ⟨UInt32.ofNat (← takeNat 4)⟩
  | found => failAt (← get).offset (.notInt4 found)

/-- A floating-point number of eight bytes. -/
def readFloat64 (kind : Kind) : Reading Binary64 := do return ⟨← readQuad kind⟩

/-- The length of a block, or the count of an array. -/
def readLength (kind : Kind) : Reading Nat := do
  match kind with
  | .block1 => takeNat 1
  | .block2 => takeNat 2
  | .block4 | .repeated => takeNat 4
  | found => failAt (← get).offset (.notBlock found)

/-- A text or byte string without its closing zero byte. -/
def readBytes (kind : Kind) : Reading Bytes := do
  let start ← get
  let length ← readLength kind
  if kind = .repeated ∨ length = 0 then failAt start.offset .emptyBlock
  else
    let closed ← take length
    if closed.getLast? = some 0 then return closed.dropLast
    else failAt ((← get).offset - 1) .notClosed

/-- A reader for the members of a nested block, which is passed over. -/
def readBlock (kind : Kind) : Reading Reader := do
  if kind.isBlock then
    let length ← readLength kind
    let start ← get
    return ⟨start.offset, ← take length⟩
  else failAt (← get).offset (.notBlock kind)

/-- The count of an array; more items than bytes left cannot follow. -/
def readRepeat (kind : Kind) : Reading Nat := do
  if kind = .repeated then
    let start ← get
    let count ← readLength kind
    let left ← get
    if hasAtLeast count left.rest then return count
    else failAt start.offset (.tooManyItems count left.remaining)
  else failAt (← get).offset (.notRepeat kind)

/-- Run an operation where passing over a member is under way. -/
def orFrame {α : Type} (read : Reading α) : EStateM SkipError Reader α := fun r =>
  match read r with
  | .ok a r => .ok a r
  | .error e r => .error (.frame e) r

/-- Pass over `count` items of an array, each one by `skipItem`. -/
def skipItems (skipItem : Kind → EStateM SkipError Reader Unit) :
    (count : Nat) → EStateM SkipError Reader Unit
  | 0 => return ()
  | count + 1 => do
    let start ← get
    let header ← orFrame readHeader
    if header.tag ≠ 0 then throw (.frame ⟨start.offset, .taggedItem⟩)
    else
      skipItem header.kind
      skipItems skipItem count

/-- Pass over a member whose header has been read; arrays may nest `depth` deep. -/
def skip : (depth : Nat) → Kind → EStateM SkipError Reader Unit
  | _, .int1 => do let _ ← orFrame (take 1)
  | _, .int2 => do let _ ← orFrame (take 2)
  | _, .int4 => do let _ ← orFrame (take 4)
  | _, .quad => do let _ ← orFrame (take 8)
  | _, .block1 => do let _ ← orFrame (readBlock .block1)
  | _, .block2 => do let _ ← orFrame (readBlock .block2)
  | _, .block4 => do let _ ← orFrame (readBlock .block4)
  | 0, .repeated => throw .tooDeep
  | depth + 1, .repeated => do
    let count ← orFrame (readRepeat .repeated)
    skipItems (skip depth) count

end Reader

end Wire

end SchemaRpc
