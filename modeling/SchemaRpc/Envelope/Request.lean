/-
# Requests

A request names a module, a member of it and a method, and carries the encoded arguments.
-/
import SchemaRpc.Envelope.Frame

namespace SchemaRpc

/-- A call of a method. -/
structure Request where
  module : String
  member : String
  method : String
  /-- The encoded arguments. -/
  payload : Bytes
deriving DecidableEq

namespace Request

/-- The word for a request in messages. -/
def typeName : String := "Request"

/-- The route of a request in messages. -/
def route (r : Request) : String := s!"{r.module}.{r.member}.{r.method}"

/-- The tag of the module in a frame. -/
def moduleTag : Tag := .ofNat 1

/-- The tag of the member in a frame. -/
def memberTag : Tag := .ofNat 2

/-- The tag of the method in a frame. -/
def methodTag : Tag := .ofNat 3

/-- The tag of the payload in a frame. -/
def payloadTag : Tag := .ofNat 4

/-- The frame of a request. -/
def encode (r : Request) : Codec.Encoded := do
  let module ← Envelope.writeBytes typeName moduleTag (Utf8.encode r.module)
  let member ← Envelope.writeBytes typeName memberTag (Utf8.encode r.member)
  let method ← Envelope.writeBytes typeName methodTag (Utf8.encode r.method)
  let payload ← Envelope.writeBytes typeName payloadTag r.payload
  return module ++ (member ++ (method ++ payload))

/-- The request of a frame. -/
def decode (frame : Bytes) : Envelope.Decoded Request := do
  let f ← Envelope.Frame.ofBytes typeName frame
  let module ← f.text moduleTag "module"
  let member ← f.text memberTag "member"
  let method ← f.text methodTag "method"
  let payload ← f.bytes payloadTag "payload"
  return ⟨module, member, method, payload⟩

end Request

end SchemaRpc
