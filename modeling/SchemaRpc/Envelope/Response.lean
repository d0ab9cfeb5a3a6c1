/-
# Responses

A response has a status and a payload: the encoded reply of a call that ended well, and what
the failure carries otherwise.
-/
import SchemaRpc.Envelope.Frame
import SchemaRpc.Envelope.Status

namespace SchemaRpc

/-- The answer to a request. -/
structure Response where
  status : Status
  payload : Bytes
deriving DecidableEq

namespace Response

/-- The word for a response in messages. -/
def typeName : String := "Response"

/-- The tag of the status in a frame. -/
def statusTag : Tag := .ofNat 1

/-- The tag of the payload in a frame. -/
def payloadTag : Tag := .ofNat 2

/-- The frame of a response. -/
def encode (r : Response) : Codec.Encoded :=
  (Envelope.writeBytes typeName payloadTag r.payload).map
    (Wire.writeInt statusTag r.status.code ++ ·)

/-- The status of a frame. -/
def decodeStatus (f : Envelope.Frame) : Envelope.Decoded Status := do
  let m ← f.member statusTag "status"
  let code ← f.read m Wire.Reader.readInt
  match Status.ofCode? code with
  | some status => return status
  | none => throw (.malformed f.type m.payload.offset (.unknownStatus code))

/-- The response of a frame. -/
def decode (frame : Bytes) : Envelope.Decoded Response := do
  let f ← Envelope.Frame.ofBytes typeName frame
  let status ← decodeStatus f
  let payload ← f.bytes payloadTag "payload"
  return ⟨status, payload⟩

/-- The response to a call with the given result. -/
def ofResult : Except Failure Bytes → Response
  | .ok payload => ⟨.ok, payload⟩
  | .error failure => ⟨.failed failure.kind, failure.payload⟩

/-- The result that a response tells of; the message of a failure is its payload as text. -/
def toResult (r : Response) : Except Failure Bytes :=
  match r.status with
  | .ok => .ok r.payload
  | .failed kind => .error ⟨kind, Utf8.decodeLossy r.payload, r.payload⟩

end Response

end SchemaRpc
