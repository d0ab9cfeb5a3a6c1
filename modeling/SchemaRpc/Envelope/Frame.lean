/-
# Frames

Requests and responses are sequences of members in ascending order of their tags.  Before any
member is looked at, the whole frame is walked through: members of any layout other than an
array can stand in it, so that either side may add members that the other does not know.
-/
import SchemaRpc.Codec.Encode
import SchemaRpc.Wire.Reader

namespace SchemaRpc

namespace Envelope

open Wire (Reader Reading Kind)

/-- What is wrong with a frame. -/
inductive Fault where
  | frame (fault : Wire.Fault)
  /-- A member stands after one with the same or a larger tag. -/
  | tagOrder (tag : Tag)
  /-- A member is an array. -/
  | nestedArray
  | notUtf8 (member : String) (fault : Utf8.Fault)
  | unknownStatus (code : Int)
deriving DecidableEq

/-- The wording of a fault. -/
def Fault.message : Fault → String
  | .frame fault => fault.message
  | .tagOrder tag => s!"tag {tag.val} out of order"
  | .nestedArray => "nested arrays are not envelope members"
  | .notUtf8 member fault => s!"{member}: invalid UTF-8: {fault.message}"
  | .unknownStatus code => s!"unknown status {code}"

/-- Why bytes are no frame of a type. -/
inductive FrameError where
  | missing (type member : String) (tag : Tag) (offset : Nat)
  | malformed (type : String) (offset : Nat) (reason : Fault)
deriving DecidableEq

namespace FrameError

/-- The wording of an error. -/
def message : FrameError → String
  | missing type member tag offset =>
    s!"{type}: missing required field '{member}' (tag {tag.val}) at offset {offset}"
  | malformed type offset reason =>
    s!"malformed bytes for {type} at offset {offset}: {reason.message}"

/-- The name of the kind of an error. -/
def kindName : FrameError → String
  | missing .. => "MissingRequiredField"
  | malformed .. => "Malformed"

/-- The offset at which the error was found. -/
def offset : FrameError → Nat
  | missing _ _ _ offset => offset
  | malformed _ offset _ => offset

end FrameError

/-- A member of a frame: its header and a reader at the place after it. -/
structure FrameMember where
  header : Wire.Header
  payload : Reader
deriving DecidableEq

/-- The members up to the end, after those already walked through, in reverse. `fuel` is at least
the number of bytes left, and every member takes one. -/
def membersFrom (type : String) :
    (fuel : Nat) → (last : Option Tag) → (done : List FrameMember) →
      EStateM FrameError Reader (List FrameMember)
  | 0, _, done => return done.reverse
  | fuel + 1, last, done => fun start =>
    if start.isEmpty then .ok done.reverse start
    else
      match Reader.readHeader start with
      | .error e r => .error (.malformed type e.offset (.frame e.fault)) r
      | .ok header payload =>
        if last.any (header.tag ≤ ·) then
          .error (.malformed type start.offset (.tagOrder header.tag)) payload
        else
          match Reader.skip 0 header.kind payload with
          | .error (.frame e) r => .error (.malformed type e.offset (.frame e.fault)) r
          | .error .tooDeep r => .error (.malformed type payload.offset .nestedArray) r
          | .ok () after =>
            membersFrom type fuel (some header.tag) (⟨header, payload⟩ :: done) after

/-- A frame that has been walked through. -/
structure Frame where
  /-- The word for the frame in messages. -/
  type : String
  members : List FrameMember
  /-- The length of the frame. -/
  length : Nat

/-- Operations that may refuse a frame. -/
abbrev Decoded := Except FrameError

namespace Frame

/-- Walk through the members of a frame. -/
def ofBytes (type : String) (bytes : Bytes) : Decoded Frame :=
  match membersFrom type bytes.length none [] (.ofBytes bytes) with
  | .ok members _ => .ok ⟨type, members, bytes.length⟩
  | .error e _ => .error e

/-- The member of a tag. -/
def member (f : Frame) (tag : Tag) (name : String) : Decoded FrameMember :=
  match f.members.find? (·.header.tag = tag) with
  | some m => .ok m
  | none => .error (.missing f.type name tag f.length)

/-- Read the payload of a member. -/
def read {α : Type} (f : Frame) (m : FrameMember) (read : Kind → Reading α) : Decoded α :=
  match read m.header.kind m.payload with
  | .ok a _ => .ok a
  | .error e _ => .error (.malformed f.type e.offset (.frame e.fault))

/-- The bytes of the member of a tag. -/
def bytes (f : Frame) (tag : Tag) (name : String) : Decoded Bytes := do
  f.read (← f.member tag name) Reader.readBytes

/-- The text of the member of a tag. -/
def text (f : Frame) (tag : Tag) (name : String) : Decoded String := do
  let m ← f.member tag name
  match Utf8.decode (← f.read m Reader.readBytes) with
  | .ok text => return text
  | .error fault => throw (.malformed f.type m.payload.offset (.notUtf8 name fault))

end Frame

/-- The member of a byte string in a frame. -/
def writeBytes (type : String) (tag : Tag) (bytes : Bytes) : Codec.Encoded :=
  match Wire.writeBytes? tag bytes with
  | some member => .ok member
  | none => .error (.tooLarge type bytes.length)

end Envelope

end SchemaRpc
