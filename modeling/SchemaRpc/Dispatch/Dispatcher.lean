/-
# Dispatching

The way of a call: its route is looked up, its payload is decoded as the parameters of the
method, the handler runs, and its answer is encoded as the reply or the exception of the method.
Without a handler the payload is not looked at, and without parameters no handler runs.  A
request frame is always answered by a response frame.

Handlers run in a monad of the caller's choice.
-/
import SchemaRpc.Config.Basic
import SchemaRpc.Dispatch.Metrics
import SchemaRpc.Dispatch.Registry
import SchemaRpc.Envelope.Request
import SchemaRpc.Envelope.Response

namespace SchemaRpc

/-- What a handler replies. -/
inductive Reply where
  /-- The fields of the method's reply. -/
  | record (fields : Record)
  /-- The reply of a method without one. -/
  | void

/-- How a handler fails. -/
inductive HandlerFailure where
  /-- The fields of the method's exception. -/
  | exception (fields : Record)
  /-- A failure that the method does not declare. -/
  | error (message : String)

/-- What a handler answers. -/
abbrev Outcome := Except HandlerFailure Reply

/-- What dispatching needs from its surroundings. -/
structure Host (H : Type) (m : Type → Type) where
  /-- Run a handler on decoded arguments. -/
  serve : H → Record → m Outcome
  /-- Record a completed dispatch. -/
  record : Completion → m Unit

/-- A registry in service. -/
structure Dispatcher (H : Type) where
  registry : Registry H
  config : Config

namespace Request

/-- The route that a request takes. -/
def path (r : Request) : Route := ⟨r.module, r.member, r.method⟩

/-- The request that takes a route. -/
def ofRoute (route : Route) (payload : Bytes) : Request :=
  ⟨route.module, route.member, route.method, payload⟩

end Request

/-- The status of a result. -/
def Status.ofResult {α : Type} : Except Failure α → Status
  | .ok _ => .ok
  | .error failure => .failed failure.kind

namespace Dispatcher

variable {H : Type} (d : Dispatcher H)

/-- The schema of a dispatcher. -/
def schema : Schema := d.registry.schema

/-- The failure of a call on a route without a handler. -/
def notFound (route : Route) : Failure :=
  .ofMessage .notFound
    (if (d.schema.methodOf? route).isSome then s!"{route.text} has no handler"
     else s!"{route.text} does not exist")

/-- The failure of a call whose handler's answer does not fit the method. -/
def invalidReply (route : Route) : Failure :=
  .ofMessage .appError s!"{route.text}: invalid handler reply"

/-- A record as the bytes of a declared struct, if the method declares one. -/
def encodeDeclared? (id : Option Nat) (fields : Record) : Option Bytes :=
  match id with
  | none => none
  | some id => (Codec.encodeRecord d.schema id fields).toOption

/-- The result of a call whose handler answered. -/
def conclude (route : Route) (method : Schema.Method) : Outcome → Except Failure Bytes
  | .ok (.record fields) =>
    match d.encodeDeclared? method.reply fields with
    | some bytes => .ok bytes
    | none => .error (invalidReply route)
  | .ok .void => if method.isVoid then .ok [] else .error (invalidReply route)
  | .error (.exception fields) =>
    match d.encodeDeclared? method.exception fields with
    | some bytes => .error (.exception bytes)
    | none => .error (invalidReply route)
  | .error (.error message) => .error (.ofMessage .appError message)

/-- The arguments that a payload writes for a method. -/
def arguments (method : Schema.Method) (payload : Bytes) : Except Failure Record :=
  (Codec.decodeStruct d.schema d.config.limits payload method.args).mapError fun e =>
    .ofMessage .badRequest e.message

/-- How a completed dispatch on a route is recorded. -/
def completion (route : Route) (result : Except Failure Bytes) : Completion :=
  ⟨if (d.registry.lookup route).isSome then route else .unrouted, .ofResult result⟩

/-- The request frame of a call of a method with the given arguments. -/
def requestFrame (route : Route) (method : Schema.Method) (args : Record) : Codec.Encoded := do
  let payload ← Codec.encodeRecord d.schema method.args args
  (Request.ofRoute route payload).encode

/-- The frame of a response. If the payload does not fit, an empty failure is answered. -/
def responseFrame (response : Response) : Bytes :=
  match response.encode with
  | .ok frame => frame
  | .error _ => (Response.encode ⟨.failed .appError, []⟩).toOption.getD []

/-- What the response frame of a method means to the caller. -/
def readReply (method : Schema.Method) (frame : Bytes) : Except Failure Reply := do
  let response ← (Response.decode frame).mapError fun e => .ofMessage .appError e.message
  let payload ← response.toResult
  match method.reply with
  | none => return .void
  | some id =>
    match Codec.decodeStruct d.schema d.config.limits payload id with
    | .ok fields => return .record fields
    | .error e => throw (.ofMessage .appError e.message)

section

variable {m : Type → Type} [Monad m] (host : Host H m)

/-- The result of a call with an encoded payload, before it is recorded. -/
def perform (route : Route) (payload : Bytes) : m (Except Failure Bytes) :=
  match d.registry.lookup route with
  | none => return .error (d.notFound route)
  | some binding =>
    match d.arguments binding.method payload with
    | .error failure => return .error failure
    | .ok args => do return d.conclude route binding.method (← host.serve binding.handler args)

/-- Answer a call with an encoded payload. -/
def dispatch (route : Route) (payload : Bytes) : m (Except Failure Bytes) := do
  let result ← d.perform host route payload
  if d.config.metricsEnabled then host.record (d.completion route result)
  return result

/-- Answer a request frame. -/
def dispatchFrame (frame : Bytes) : m Bytes :=
  match Request.decode frame with
  | .ok request => do
    return responseFrame (.ofResult (← d.dispatch host request.path request.payload))
  | .error e => return responseFrame (.ofResult (.error (.ofMessage .badRequest e.message)))

/-- Call a method with arguments, by way of frames. -/
def call (route : Route) (args : Record) : m (Except Failure Reply) :=
  match d.schema.methodOf? route with
  | none => return .error (d.notFound route)
  | some method =>
    match d.requestFrame route method args with
    | .error e => return .error (.ofMessage .badRequest e.message)
    | .ok frame => do return d.readReply method (← d.dispatchFrame host frame)

end

end Dispatcher

end SchemaRpc
