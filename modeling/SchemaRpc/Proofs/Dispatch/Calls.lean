/-
# Calls

A caller hands over arguments and gets a reply; in between stand a request frame and a response
frame, and arguments and reply are encoded and decoded on the way.  None of this shows:

* `call_eq_serve`: a call runs the handler of its route, once and on the arguments in their
  normal form, and all that is left to say is what the caller reads from the response,
* `relays_relay`: the caller reads what the handler answered, replies and exceptions in their
  normal form, if the method declares them, and a failure otherwise.
-/
import SchemaRpc.Dispatch.Dispatcher
import SchemaRpc.Proofs.Codec.RoundTrip
import SchemaRpc.Proofs.Dispatch.Setup
import SchemaRpc.Proofs.Envelope.Frame

namespace SchemaRpc

open Codec (encodeRecord decodeStruct)

/-- The names of a route fit a request. -/
structure Route.Fits (route : Route) : Prop where
  module : Envelope.Fits (Utf8.encode route.module)
  member : Envelope.Fits (Utf8.encode route.member)
  method : Envelope.Fits (Utf8.encode route.method)

lemma Route.Fits.request {route : Route} (h : route.Fits) {payload : Bytes}
    (hpayload : Envelope.Fits payload) : (Request.ofRoute route payload).Fits :=
  ⟨h.module, h.member, h.method, hpayload⟩

namespace Dispatcher

variable {H : Type} (d : Dispatcher H)

/-- The record and the bytes that it is encoded as keep to the limits of decoding and to the
length of a frame. -/
structure Admits (id : Nat) (fields : Record) (bytes : Bytes) : Prop where
  fits : Envelope.Fits bytes
  length : bytes.length ≤ d.config.limits.maxPayload
  nesting : (Value.struct fields).nestingAt (.struct id) ≤ d.config.limits.maxDepth

/-- An outcome that fits the declaration of the method. -/
inductive Declares (method : Schema.Method) : Outcome → Prop
  | record {id : Nat} {fields : Record} {bytes : Bytes} (hid : method.reply = some id)
    (h : encodeRecord d.schema id fields = .ok bytes) : Declares method (.ok (.record fields))
  | void (h : method.reply = none) : Declares method (.ok .void)
  | exception {id : Nat} {fields : Record} {bytes : Bytes} (hid : method.exception = some id)
    (h : encodeRecord d.schema id fields = .ok bytes) :
    Declares method (.error (.exception fields))
  | error (message : String) : Declares method (.error (.error message))

/-- What callers get for the outcomes of a handler: records in their normal form, and failures
of the application. -/
structure Relays (method : Schema.Method) (answer : Outcome → Except Failure Reply) : Prop where
  record : ∀ {id fields bytes}, method.reply = some id →
    encodeRecord d.schema id fields = .ok bytes → d.Admits id fields bytes →
      answer (.ok (.record fields)) = .ok (.record (fields.normalise d.schema id))
  void : method.reply = none → answer (.ok .void) = .ok .void
  exception : ∀ {id fields bytes}, method.exception = some id →
    encodeRecord d.schema id fields = .ok bytes → Envelope.Fits bytes →
      ∃ failure, answer (.error (.exception fields)) = .error failure ∧
        failure.kind = .appError ∧ failure.payload = bytes ∧
          ∀ limits : Codec.Limits, bytes.length ≤ limits.maxPayload →
            (Value.struct fields).nestingAt (.struct id) ≤ limits.maxDepth →
              decodeStruct d.schema limits failure.payload id =
                .ok (fields.normalise d.schema id)
  error : ∀ {message}, Envelope.Fits (Utf8.encode message) →
    answer (.error (.error message)) = .error ⟨.appError, message, Utf8.encode message⟩
  mismatch : ∀ {outcome}, ¬ d.Declares method outcome →
    ∃ failure, answer outcome = .error failure ∧ failure.kind = .appError

variable {d} {route : Route} {method : Schema.Method}

/-! ## What a handler's answer becomes -/

lemma encodeDeclared?_eq_some_iff {id : Option Nat} {fields : Record} {bytes : Bytes} :
    d.encodeDeclared? id fields = some bytes ↔
      ∃ i, id = some i ∧ encodeRecord d.schema i fields = .ok bytes := by
  cases id with
  | none => simp [encodeDeclared?]
  | some id =>
    cases h : encodeRecord d.schema id fields <;> simp [encodeDeclared?, h, Except.toOption]

lemma conclude_record {id : Nat} {fields : Record} {bytes : Bytes} (hid : method.reply = some id)
    (h : encodeRecord d.schema id fields = .ok bytes) :
    d.conclude route method (.ok (.record fields)) = .ok bytes := by
  have hencode : d.encodeDeclared? method.reply fields = some bytes :=
    encodeDeclared?_eq_some_iff.mpr ⟨id, hid, h⟩
  simp only [conclude, hencode]

lemma conclude_void (h : method.reply = none) : d.conclude route method (.ok .void) = .ok [] := by
  simp [conclude, Schema.Method.isVoid, h]

lemma conclude_exception {id : Nat} {fields : Record} {bytes : Bytes}
    (hid : method.exception = some id) (h : encodeRecord d.schema id fields = .ok bytes) :
    d.conclude route method (.error (.exception fields)) = .error (.exception bytes) := by
  have hencode : d.encodeDeclared? method.exception fields = some bytes :=
    encodeDeclared?_eq_some_iff.mpr ⟨id, hid, h⟩
  simp only [conclude, hencode]

/-- An outcome that the method does not declare is a failure of the application. -/
lemma conclude_of_not_declares {outcome : Outcome} (h : ¬ d.Declares method outcome) :
    d.conclude route method outcome = .error (invalidReply route) := by
  rcases outcome with (fields | message) | (fields | _)
  · cases hencode : d.encodeDeclared? method.exception fields with
    | none => simp only [conclude, hencode]
    | some bytes =>
      obtain ⟨id, hid, hbytes⟩ := encodeDeclared?_eq_some_iff.mp hencode
      exact absurd (.exception hid hbytes) h
  · exact absurd (.error message) h
  · cases hencode : d.encodeDeclared? method.reply fields with
    | none => simp only [conclude, hencode]
    | some bytes =>
      obtain ⟨id, hid, hbytes⟩ := encodeDeclared?_eq_some_iff.mp hencode
      exact absurd (.record hid hbytes) h
  · have hreply : method.reply ≠ none := fun hreply => h (.void hreply)
    simp [conclude, Schema.Method.isVoid, hreply]

/-! ## What the caller reads -/

/-- A response that fits its frame arrives. -/
lemma decode_responseFrame {r : Response} (h : Envelope.Fits r.payload) :
    Response.decode (responseFrame r) = .ok r := by
  have hencode := Response.encode_eq_ok_iff.mpr ⟨h, rfl⟩
  rw [responseFrame, hencode]
  exact Response.decode_of_encode hencode

/-- Of a response that does not fit its frame, an empty failure arrives. -/
lemma decode_responseFrame_of_not_fits {r : Response} (h : ¬ Envelope.Fits r.payload) :
    Response.decode (responseFrame r) = .ok ⟨.failed .appError, []⟩ := by
  have hempty := Response.encode_eq_ok_iff (r := ⟨.failed .appError, []⟩).mpr ⟨by decide, rfl⟩
  cases hencode : r.encode with
  | ok frame => exact absurd (Response.encode_eq_ok_iff.mp hencode).1 h
  | error e =>
    simp only [responseFrame, hencode, hempty]
    exact Response.decode_of_encode hempty

/-- What the caller of a method reads from the response to a result. -/
def relay (d : Dispatcher H) (method : Schema.Method) (result : Except Failure Bytes) :
    Except Failure Reply :=
  d.readReply method (responseFrame (.ofResult result))

lemma readReply_of_failed {frame payload : Bytes} {kind : FailureKind}
    (h : Response.decode frame = .ok ⟨.failed kind, payload⟩) :
    d.readReply method frame = .error ⟨kind, Utf8.decodeLossy payload, payload⟩ := by
  rw [readReply, h]
  rfl

lemma relay_error {failure : Failure} (h : Envelope.Fits failure.payload) :
    d.relay method (.error failure) =
      .error ⟨failure.kind, Utf8.decodeLossy failure.payload, failure.payload⟩ :=
  readReply_of_failed (decode_responseFrame h)

/-- A failure of the application arrives as one, however long its payload is. -/
lemma relay_appError {failure : Failure} (h : failure.kind = .appError) :
    ∃ read, d.relay method (.error failure) = .error read ∧ read.kind = .appError := by
  by_cases hfits : Envelope.Fits failure.payload
  · exact ⟨_, relay_error hfits, h⟩
  · exact ⟨_, readReply_of_failed (decode_responseFrame_of_not_fits hfits), rfl⟩

lemma relay_void (h : method.reply = none) : d.relay method (.ok []) = .ok .void := by
  have hfits : Envelope.Fits [] := by decide
  rw [relay, readReply, decode_responseFrame hfits]
  simp only [h]
  rfl

lemma relay_record {id : Nat} {bytes : Bytes} {fields : Record} (hid : method.reply = some id)
    (hfits : Envelope.Fits bytes)
    (h : decodeStruct d.schema d.config.limits bytes id = .ok fields) :
    d.relay method (.ok bytes) = .ok (.record fields) := by
  have hresult : (Response.ofResult (.ok bytes)).toResult = .ok bytes := rfl
  rw [relay, readReply, decode_responseFrame hfits]
  simp only [Except.mapError, bind, Except.bind, hresult, hid, h]
  rfl

/-- The caller reads what the handler answered. -/
theorem relays_relay (hs : d.schema.Ascends) :
    d.Relays method fun outcome => d.relay method (d.conclude route method outcome) where
  record hid h hadmits := by
    rw [conclude_record hid h]
    exact relay_record hid hadmits.fits
      (Codec.decodeStruct_of_encodeRecord hs h hadmits.length hadmits.nesting)
  void h := by rw [conclude_void h, relay_void h]
  exception hid h hfits := by
    rw [conclude_exception hid h]
    exact ⟨_, relay_error hfits, rfl, rfl, fun limits hlength hnesting =>
      Codec.decodeStruct_of_encodeRecord hs h hlength hnesting⟩
  error hfits := by
    have hread := Utf8.decodeLossy_encode
    rw [conclude, relay_error hfits, Failure.ofMessage, hread]
  mismatch h := by
    rw [conclude_of_not_declares h]
    exact relay_appError rfl

/-! ## The way to the handler -/

section

variable {m : Type → Type} [Monad m] (host : Host H m)

/-- The request frame of arguments that encode arrives at the method's route. -/
lemma decode_requestFrame {args : Record} {payload : Bytes} (hroute : route.Fits)
    (hpayload : encodeRecord d.schema method.args args = .ok payload)
    (hfits : Envelope.Fits payload) :
    ∃ frame, d.requestFrame route method args = .ok frame ∧
      Request.decode frame = .ok (.ofRoute route payload) := by
  have hencode := Request.encode_eq_ok_iff.mpr ⟨hroute.request hfits, rfl⟩
  exact ⟨_, Outcome.bind_eq_ok_iff.mpr ⟨payload, hpayload, hencode⟩,
    Request.decode_of_encode hencode⟩

/-- A dispatch with a payload that writes arguments runs the handler on them. -/
lemma dispatch_eq_serve [LawfulMonad m] {binding : Binding H}
    (hbound : d.registry.lookup route = some binding) {payload : Bytes} {args : Record}
    (hargs : decodeStruct d.schema d.config.limits payload binding.method.args = .ok args) :
    d.dispatch host route payload = do
      let outcome ← host.serve binding.handler args
      let result := d.conclude route binding.method outcome
      if d.config.metricsEnabled then host.record (d.completion route result)
      return result := by
  have harguments : d.arguments binding.method payload = .ok args := by
    rw [arguments, hargs]
    rfl
  simp only [dispatch, perform, hbound, harguments, bind_assoc, pure_bind]

/-- Arguments that do not encode are refused before anything runs. -/
lemma call_of_encode_eq_error {args : Record} {e : Codec.EncodeError}
    (hmethod : d.schema.methodOf? route = some method)
    (h : encodeRecord d.schema method.args args = .error e) :
    d.call host route args = pure (.error (.ofMessage .badRequest e.message)) := by
  have hframe : d.requestFrame route method args = .error e := by
    rw [requestFrame, h]
    rfl
  simp only [call, hmethod, hframe]

/-- Arguments that encode within the limits reach the handler. -/
lemma call_of_encode_eq_ok [LawfulMonad m] (hs : d.schema.Ascends) {binding : Binding H}
    (hbound : d.registry.lookup route = some binding)
    (hmethod : d.schema.methodOf? route = some binding.method) (hroute : route.Fits)
    {args : Record} {payload : Bytes}
    (hpayload : encodeRecord d.schema binding.method.args args = .ok payload)
    (hadmits : d.Admits binding.method.args args payload) :
    d.call host route args = do
      let outcome ← host.serve binding.handler (args.normalise d.schema binding.method.args)
      let result := d.conclude route binding.method outcome
      if d.config.metricsEnabled then host.record (d.completion route result)
      return d.relay binding.method result := by
  obtain ⟨frame, hframe, hrequest⟩ := decode_requestFrame hroute hpayload hadmits.fits
  have hargs :=
    Codec.decodeStruct_of_encodeRecord hs hpayload hadmits.length hadmits.nesting
  have hdispatch := dispatch_eq_serve host hbound hargs
  have hpath : (Request.ofRoute route payload).path = route := rfl
  have hsent : (Request.ofRoute route payload).payload = payload := rfl
  simp only [call, hmethod, hframe, dispatchFrame, hrequest, hpath, hsent, hdispatch, bind_assoc,
    pure_bind, relay]
  refine bind_congr fun outcome => ?_
  split
  · rw [bind_assoc]
    simp only [pure_bind]
  · rw [pure_bind]

/-- **Calls are transparent.**  On a bound route, arguments that do not encode are a bad request
and nothing runs.  Arguments that encode within the limits reach the handler, which runs once and
gets them in their normal form, and the caller gets what the handler answered. -/
theorem call_eq_serve [LawfulMonad m] {p : Package} (hp : Schema.resolve p = .ok d.schema)
    (hbuilt : d.registry.Built) {binding : Binding H}
    (hbound : d.registry.lookup route = some binding) (args : Record) :
    (∀ e, encodeRecord d.schema binding.method.args args = .error e →
      d.call host route args = pure (.error (.ofMessage .badRequest e.message))) ∧
    ∀ payload, encodeRecord d.schema binding.method.args args = .ok payload →
      d.Admits binding.method.args args payload → route.Fits →
        ∃ answer, d.Relays binding.method answer ∧
          d.call host route args = do
            let outcome ← host.serve binding.handler (args.normalise d.schema binding.method.args)
            if d.config.metricsEnabled then
              host.record (d.completion route (d.conclude route binding.method outcome))
            return answer outcome := by
  have hs := Schema.ascends_of_resolve hp
  have hmethod := hbuilt.sound route binding hbound
  refine ⟨fun e h => call_of_encode_eq_error host hmethod h, fun payload h hadmits hroute => ?_⟩
  exact ⟨_, relays_relay hs, call_of_encode_eq_ok host hs hbound hmethod hroute h hadmits⟩

end

/-! ## A call at the desk -/

/-- The route to a weighing. -/
def weighRoute : Route := ⟨"Office", "front", "weigh"⟩

/-- The method of a weighing with its handler. -/
def weighBinding : Binding String := ⟨⟨"weigh", .ofNat 1, 0, some 1, some 2⟩, "scales"⟩

/-- A dispatcher of a desk with scales. -/
def deskDispatcher : Dispatcher String :=
  ⟨⟨Schema.deskSchema, .cons weighRoute (fun _ h => nomatch h) weighBinding .nil⟩, .default⟩

/-- The handler notes what it gets and replies a weight. -/
def deskHost : Host String (StateM (List Record)) where
  serve _ args := do
    modify (args :: ·)
    return .ok (.record (Record.ofList [(.ofNat 1, .present (.int .u16 ⟨1200, by decide⟩))]))
  record _ := return

/-- The arguments of a weighing, the size left out. -/
def weighArgs : Record := Record.ofList [(.ofNat 1, .present (.int .u32 ⟨300, by decide⟩))]

/-- The arguments of a weighing as they arrive. -/
def weighed : Record := Record.ofList [(.ofNat 1, .present (.int .u32 ⟨300, by decide⟩)),
  (.ofNat 2, .defaulted (.enum Schema.large))]

lemma built_desk : deskDispatcher.registry.Built := by
  have himplement : Registry.implement weighRoute "scales" (.ofSchema Schema.deskSchema) =
      .ok () deskDispatcher.registry := by rfl
  exact .implement (.ofSchema _) (.inl ⟨(), himplement⟩)

/-- A weighing without a size reaches the scales with the size that stands for it. -/
theorem call_eq_serve_weigh :
    encodeRecord deskDispatcher.schema 0 weighArgs = .ok [161, 44, 1] ∧
      ∃ answer, deskDispatcher.Relays weighBinding.method answer ∧
        deskDispatcher.call deskHost weighRoute weighArgs = do
          let outcome ← deskHost.serve "scales" weighed
          if deskDispatcher.config.metricsEnabled then
            deskHost.record (deskDispatcher.completion weighRoute
              (deskDispatcher.conclude weighRoute weighBinding.method outcome))
          return answer outcome := by
  have hpayload : encodeRecord deskDispatcher.schema 0 weighArgs = .ok [161, 44, 1] := by rfl
  have hadmits : deskDispatcher.Admits 0 weighArgs [161, 44, 1] :=
    ⟨by decide, by decide, by decide⟩
  have hroute : weighRoute.Fits := ⟨by decide, by decide, by decide⟩
  have hnormal : weighArgs.normalise deskDispatcher.schema 0 = weighed := by rfl
  have hbound : deskDispatcher.registry.lookup weighRoute = some weighBinding := by rfl
  have hcall := (call_eq_serve deskHost Schema.resolve_desk built_desk hbound weighArgs).2 _
    hpayload hadmits hroute
  rw [show weighBinding.method.args = 0 from rfl, hnormal] at hcall
  exact ⟨hpayload, hcall⟩

end Dispatcher

end SchemaRpc
