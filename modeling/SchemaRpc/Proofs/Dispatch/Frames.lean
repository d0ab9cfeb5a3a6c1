/-
# Frames and their answers

Whatever bytes arrive as a request frame, the answer is a frame that decodes.  A frame of a request
is answered by what the dispatch of the request ends with: a caller who reads the answer gets the
reply or the failure, of the same kind and with the same payload, and tells one status from another.
A frame of no request makes nothing run, and the caller reads what is wrong with it.

* `Tells` says what a caller reads of a result,
* `dispatchFrame_tells` says what a caller reads of the answer to a frame.
-/
import SchemaRpc.Proofs.Dispatch.Answers

namespace SchemaRpc

open Codec (decodeStruct)

namespace Dispatcher

variable {H : Type} {d : Dispatcher H} {handle : H → Record → Outcome} {route : Route}
  {payload frame : Bytes} {before after : Activity H}

/-! ## Reading a result -/

lemma status_ofResult (result : Except Failure Bytes) :
    (Response.ofResult result).status = Status.ofResult result := by
  cases result <;> rfl

/-- What a caller reads of a result: the reply, or a failure of the same kind and with the same
payload. The message is the same too, unless the payload is an exception that was raised. -/
structure Tells (raised : Bytes → Prop) (result read : Except Failure Bytes) : Prop where
  ok : ∀ bytes, read = .ok bytes ↔ result = .ok bytes
  error : ∀ failure, result = .error failure → ∃ message,
    read = .error ⟨failure.kind, message, failure.payload⟩ ∧
      (message = failure.message ∨ raised failure.payload)

/-- The handler of the route raises the exception that the bytes write. -/
def Raised (d : Dispatcher H) (handle : H → Record → Outcome) (route : Route) (payload : Bytes)
    (bytes : Bytes) : Prop :=
  ∃ binding args, d.registry.lookup route = some binding ∧
    decodeStruct d.schema d.config.limits payload binding.method.args = .ok args ∧
      d.Raises binding.method (handle binding.handler args) bytes

/-- The text of a failure whose payload is its message is the message. -/
lemma decodeLossy_ofMessage (kind : FailureKind) (message : String) :
    Utf8.decodeLossy (Failure.ofMessage kind message).payload = message := by
  rw [Failure.ofMessage, Utf8.decodeLossy_encode]

/-- The payload of a failure is its message, unless it is an exception that was raised. -/
lemma message_or_raised {failure : Failure}
    (h : (d.perform (.watching handle) route payload).run before = (.error failure, after)) :
    Utf8.decodeLossy failure.payload = failure.message ∨
      d.Raised handle route payload failure.payload := by
  rcases run_perform_cases d handle route payload before with
    ⟨-, hrun⟩ | ⟨binding, e, -, -, hrun⟩ | ⟨binding, args, hbound, hargs, hrun⟩
  · rw [hrun] at h
    cases h
    exact .inl (decodeLossy_ofMessage _ _)
  · rw [hrun] at h
    cases h
    exact .inl (decodeLossy_ofMessage _ _)
  · obtain ⟨hresult, -⟩ := Prod.mk.inj (hrun.symm.trans h)
    have hfails := conclude_eq_error_iff.mp hresult
    rcases hfails.payload with hraises | hmessage
    · exact .inr ⟨binding, args, hbound, hargs, hraises⟩
    · rw [hmessage, Utf8.decodeLossy_encode]
      exact .inl rfl

/-- Of a failure its kind and its payload are read, and the payload is taken for the message. -/
lemma toResult_error (failure : Failure) : (Response.ofResult (.error failure)).toResult =
    .error ⟨failure.kind, Utf8.decodeLossy failure.payload, failure.payload⟩ := rfl

/-- A result is read from its response, up to the message of an exception. -/
lemma tells_toResult {raised : Bytes → Prop} {result : Except Failure Bytes}
    (h : ∀ failure, result = .error failure →
      Utf8.decodeLossy failure.payload = failure.message ∨ raised failure.payload) :
    Tells raised result (Response.ofResult result).toResult := by
  cases result with
  | ok bytes =>
    have hread : (Response.ofResult (.ok bytes)).toResult = .ok bytes := rfl
    refine ⟨fun _ => by rw [hread], fun failure hfailure => ?_⟩
    cases hfailure
  | error failure =>
    refine ⟨fun _ => by simp [toResult_error], fun failure' heq => ?_⟩
    cases heq
    exact ⟨_, toResult_error failure, h failure rfl⟩

/-- A failure whose payload is its message is read as it is. -/
lemma toResult_ofMessage (kind : FailureKind) (message : String) :
    (Response.ofResult (.error (.ofMessage kind message))).toResult =
      .error (.ofMessage kind message) := by
  rw [toResult_error, decodeLossy_ofMessage]
  rfl

/-! ## Answering a frame -/

/-- The frame of a request is answered by the result of its dispatch. -/
lemma run_dispatchFrame {request : Request} {result : Except Failure Bytes}
    (hrequest : Request.decode frame = .ok request)
    (h : (d.dispatch (.watching handle) request.path request.payload).run before =
      (result, after)) :
    (d.dispatchFrame (.watching handle) frame).run before =
      (responseFrame (.ofResult result), after) := by
  simp only [dispatchFrame, hrequest]
  rw [StateT.run_bind, h]
  rfl

/-- Every answer decodes, and if the response fits, it is the response that is read. -/
lemma exists_decode_responseFrame (r : Response) :
    ∃ response, Response.decode (responseFrame r) = .ok response ∧
      (Envelope.Fits r.payload → response = r) := by
  by_cases h : Envelope.Fits r.payload
  · exact ⟨r, decode_responseFrame h, fun _ => rfl⟩
  · exact ⟨_, decode_responseFrame_of_not_fits h, fun hfits => absurd hfits h⟩

/-- Results whose answers are the same have the same status. -/
lemma status_eq_of_responseFrame_eq {result result' : Except Failure Bytes}
    (hfits : Envelope.Fits (Response.ofResult result).payload)
    (hfits' : Envelope.Fits (Response.ofResult result').payload)
    (h : responseFrame (.ofResult result) = responseFrame (.ofResult result')) :
    Status.ofResult result = Status.ofResult result' := by
  have hread := decode_responseFrame hfits
  rw [h, decode_responseFrame hfits'] at hread
  have hresponse := Except.ok.inj hread
  rw [← status_ofResult result, ← status_ofResult result', hresponse]

/-- **Answers are faithful.**  Every frame is answered by a frame that decodes.  If it is the frame
of a request, what happens is what the dispatch of the request does, and the caller reads the result
of the dispatch; if it is none, nothing runs, and the caller reads a bad request with the reason.
Answers to results of different status are different. -/
theorem dispatchFrame_tells (d : Dispatcher H) (handle : H → Record → Outcome) (frame : Bytes)
    (before : Activity H) :
    (∃ reply after response,
      (d.dispatchFrame (.watching handle) frame).run before = (reply, after) ∧
      Response.decode reply = .ok response ∧
      (∀ request, Request.decode frame = .ok request →
        ∃ result, (d.dispatch (.watching handle) request.path request.payload).run before =
            (result, after) ∧
          (Envelope.Fits (Response.ofResult result).payload →
            response.status = Status.ofResult result ∧
            Tells (d.Raised handle request.path request.payload) result response.toResult)) ∧
      ∀ e, Request.decode frame = .error e → after = before ∧
        (Envelope.Fits (Utf8.encode e.message) →
          response.toResult = .error (.ofMessage .badRequest e.message))) ∧
    ∀ result result', Envelope.Fits (Response.ofResult result).payload →
      Envelope.Fits (Response.ofResult result').payload →
        responseFrame (.ofResult result) = responseFrame (.ofResult result') →
          Status.ofResult result = Status.ofResult result' := by
  refine ⟨?_, fun _ _ => status_eq_of_responseFrame_eq⟩
  cases hrequest : Request.decode frame with
  | error e =>
    obtain ⟨response, hdecode, hfits⟩ :=
      exists_decode_responseFrame (.ofResult (.error (.ofMessage .badRequest e.message)))
    have hrun : (d.dispatchFrame (.watching handle) frame).run before =
        (responseFrame (.ofResult (.error (.ofMessage .badRequest e.message))), before) := by
      simp only [dispatchFrame, hrequest]
      rfl
    refine ⟨_, _, response, hrun, hdecode, fun request hrequest' => ?_, fun e' he => ?_⟩
    · cases hrequest'
    · cases he
      refine ⟨rfl, fun hpayload => ?_⟩
      rw [hfits hpayload, toResult_ofMessage]
  | ok request =>
    rcases hperform : (d.perform (.watching handle) request.path request.payload).run before with
      ⟨result, performed⟩
    have hdispatch := run_dispatch hperform
    obtain ⟨response, hdecode, hfits⟩ := exists_decode_responseFrame (.ofResult result)
    refine ⟨_, _, response, run_dispatchFrame hrequest hdispatch, hdecode,
      fun request' hrequest' => ?_, fun e he => ?_⟩
    · cases hrequest'
      refine ⟨result, hdispatch, fun hpayload => ?_⟩
      rw [hfits hpayload]
      refine ⟨status_ofResult result, tells_toResult fun failure hfailure => ?_⟩
      rw [hfailure] at hperform
      exact message_or_raised hperform
    · cases he

/-- The frame of a request for a weighing. -/
def weighFrame : Bytes :=
  [1, 7, 79, 102, 102, 105, 99, 101, 0, 2, 6, 102, 114, 111, 110, 116, 0,
    3, 6, 119, 101, 105, 103, 104, 0, 4, 4, 161, 44, 1, 0]

/-- The frame of a request for a weighing is answered by the weight, and a frame of nothing by what
is wrong with it. -/
theorem dispatchFrame_tells_desk :
    (∃ reply response, (deskDispatcher.dispatchFrame (.watching deskHandle) weighFrame).run
          ⟨[], []⟩ = (reply, ⟨[("scales", weighed)], [⟨weighRoute, .ok⟩]⟩) ∧
        Response.decode reply = .ok response ∧ response.toResult = .ok [161, 132, 3]) ∧
      ∃ reply response e, (deskDispatcher.dispatchFrame (.watching deskHandle) []).run
          ⟨[], []⟩ = (reply, ⟨[], []⟩) ∧ Response.decode reply = .ok response ∧
        Request.decode [] = .error e ∧
          response.toResult = .error (.ofMessage .badRequest e.message) := by
  constructor
  · have hrequest : Request.decode weighFrame = .ok (.ofRoute weighRoute [161, 44, 1]) := by rfl
    have hdispatch :
        (deskDispatcher.dispatch (.watching deskHandle) weighRoute [161, 44, 1]).run ⟨[], []⟩ =
          (.ok [161, 132, 3], ⟨[("scales", weighed)], [⟨weighRoute, .ok⟩]⟩) := by rfl
    obtain ⟨⟨reply, after, response, hrun, hdecode, hread, -⟩, -⟩ :=
      dispatchFrame_tells deskDispatcher deskHandle weighFrame ⟨[], []⟩
    obtain ⟨result, hresult, htells⟩ := hread _ hrequest
    obtain ⟨rfl, rfl⟩ := Prod.mk.inj (hdispatch.symm.trans hresult)
    have hfits : Envelope.Fits (Response.ofResult (.ok [161, 132, 3])).payload := by decide
    exact ⟨reply, response, hrun, hdecode, ((htells hfits).2.ok _).mpr rfl⟩
  · obtain ⟨⟨reply, after, response, hrun, hdecode, -, hread⟩, -⟩ :=
      dispatchFrame_tells deskDispatcher deskHandle [] ⟨[], []⟩
    obtain ⟨e, he, hfits⟩ : ∃ e, Request.decode [] = .error e ∧
        Envelope.Fits (Utf8.encode e.message) := ⟨_, rfl, by decide⟩
    obtain ⟨rfl, htold⟩ := hread e he
    exact ⟨reply, response, e, hrun, hdecode, he, htold hfits⟩

end Dispatcher

end SchemaRpc
