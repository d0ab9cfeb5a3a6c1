/-
# Answers to calls

What a dispatch does, watched from its host.  A route without a handler is not found, whatever the
payload is; a payload that does not write arguments is a bad request; and no handler runs in either
case.  Any other payload makes the handler of the route run once, on arguments of the declared type,
and its outcome is answered by a reply of the declared type or is a failure of the application.

* `conclude_eq_ok_iff` and `conclude_eq_error_iff` say what becomes of an outcome,
* `dispatch_answers` says how a dispatch ends and what runs.
-/
import SchemaRpc.Proofs.Codec.Conformance
import SchemaRpc.Proofs.Dispatch.Calls

namespace SchemaRpc

open Codec (encodeRecord decodeStruct Conforms)

/-! ## Watching a host -/

/-- What has happened at a host: the handlers that ran, with their arguments, and the completed
dispatches that were recorded, the first ones first. -/
structure Activity (H : Type) where
  runs : List (H × Record)
  recorded : List Completion

namespace Activity

variable {H : Type}

/-- Some more has happened. -/
def extend (a : Activity H) (runs : List (H × Record)) (recorded : List Completion) :
    Activity H :=
  ⟨a.runs ++ runs, a.recorded ++ recorded⟩

lemma extend_nil (a : Activity H) : a.extend [] [] = a := by simp [extend]

lemma extend_extend (a : Activity H) (runs runs' : List (H × Record))
    (recorded recorded' : List Completion) : (a.extend runs recorded).extend runs' recorded' =
      a.extend (runs ++ runs') (recorded ++ recorded') := by
  simp [extend]

end Activity

/-- A host at which handlers answer as they are given to, and which is watched. -/
def Host.watching {H : Type} (handle : H → Record → Outcome) : Host H (StateM (Activity H)) where
  serve handler args := do
    modify (·.extend [(handler, args)] [])
    return handle handler args
  record completion := modify (·.extend [] [completion])

namespace Dispatcher

variable {H : Type} {d : Dispatcher H} {route : Route} {method : Schema.Method}

/-! ## What becomes of an outcome -/

/-- The outcome is a reply that the method declares, and the bytes write it. -/
inductive Replies (d : Dispatcher H) (method : Schema.Method) : Outcome → Bytes → Prop
  | record {id : Nat} {fields : Record} {bytes : Bytes} (hid : method.reply = some id)
    (h : encodeRecord d.schema id fields = .ok bytes) :
    Replies d method (.ok (.record fields)) bytes
  | void (h : method.reply = none) : Replies d method (.ok .void) []

/-- The outcome is an exception that the method declares, and the bytes write it. -/
inductive Raises (d : Dispatcher H) (method : Schema.Method) : Outcome → Bytes → Prop
  | exception {id : Nat} {fields : Record} {bytes : Bytes} (hid : method.exception = some id)
    (h : encodeRecord d.schema id fields = .ok bytes) :
    Raises d method (.error (.exception fields)) bytes

/-- The failure that an outcome is answered by: it carries an exception that the method declares,
the message of the handler, or the message that the outcome does not fit the method. -/
inductive Fails (d : Dispatcher H) (route : Route) (method : Schema.Method) :
    Outcome → Failure → Prop
  | exception {outcome : Outcome} {bytes : Bytes} (h : d.Raises method outcome bytes) :
    Fails d route method outcome (.exception bytes)
  | error (message : String) : Fails d route method (.error (.error message))
    (.ofMessage .appError message)
  | mismatch {outcome : Outcome} (h : ¬ d.Declares method outcome) :
    Fails d route method outcome (invalidReply route)

variable {outcome : Outcome} {bytes : Bytes} {failure : Failure}

lemma Replies.conclude (h : d.Replies method outcome bytes) :
    d.conclude route method outcome = .ok bytes := by
  cases h with
  | record hid h => exact conclude_record hid h
  | void h => exact conclude_void h

lemma Fails.conclude (h : d.Fails route method outcome failure) :
    d.conclude route method outcome = .error failure := by
  cases h with
  | exception h =>
    cases h with
    | exception hid h => exact conclude_exception hid h
  | error message => rfl
  | mismatch h => exact conclude_of_not_declares h

/-- Every outcome is a reply or a failure. -/
lemma replies_or_fails (d : Dispatcher H) (route : Route) (method : Schema.Method)
    (outcome : Outcome) :
    (∃ bytes, d.Replies method outcome bytes) ∨
      ∃ failure, d.Fails route method outcome failure := by
  by_cases h : d.Declares method outcome
  · cases h with
    | record hid h => exact .inl ⟨_, .record hid h⟩
    | void h => exact .inl ⟨_, .void h⟩
    | exception hid h => exact .inr ⟨_, .exception (.exception hid h)⟩
    | error message => exact .inr ⟨_, .error message⟩
  · exact .inr ⟨_, .mismatch h⟩

/-- A reply is answered by its encoding, and nothing else ends well. -/
theorem conclude_eq_ok_iff :
    d.conclude route method outcome = .ok bytes ↔ d.Replies method outcome bytes := by
  constructor
  · intro h
    rcases replies_or_fails d route method outcome with ⟨bytes', hreplies⟩ | ⟨failure, hfails⟩
    · have hconclude : d.conclude route method outcome = .ok bytes' := hreplies.conclude
      rw [h] at hconclude
      cases hconclude
      exact hreplies
    · rw [hfails.conclude] at h
      cases h
  · exact Replies.conclude

theorem conclude_eq_error_iff :
    d.conclude route method outcome = .error failure ↔ d.Fails route method outcome failure := by
  constructor
  · intro h
    rcases replies_or_fails d route method outcome with ⟨bytes, hreplies⟩ | ⟨failure', hfails⟩
    · rw [hreplies.conclude] at h
      cases h
    · have hconclude := hfails.conclude
      rw [h] at hconclude
      cases hconclude
      exact hfails
  · exact Fails.conclude

lemma Fails.kind (h : d.Fails route method outcome failure) : failure.kind = .appError := by
  cases h <;> rfl

/-- Where a handler has answered, the call ends well or with a failure of the application. -/
lemma status_conclude (d : Dispatcher H) (route : Route) (method : Schema.Method)
    (outcome : Outcome) : Status.ofResult (d.conclude route method outcome) = .ok ∨
      Status.ofResult (d.conclude route method outcome) = .failed .appError := by
  cases h : d.conclude route method outcome with
  | ok bytes => exact .inl rfl
  | error failure => exact .inr (congrArg Status.failed (conclude_eq_error_iff.mp h).kind)

/-- The payload of a failure writes the exception, or else the message. -/
lemma Fails.payload (h : d.Fails route method outcome failure) :
    d.Raises method outcome failure.payload ∨ failure.payload = Utf8.encode failure.message := by
  cases h with
  | exception h => exact .inl h
  | error message => exact .inr rfl
  | mismatch h => exact .inr rfl

/-- Whoever reads a reply gets the record that the handler answered, in its normal form. -/
lemma Replies.reads (hs : d.schema.Ascends) {fields : Record}
    (h : d.Replies method (.ok (.record fields)) bytes) :
    ∃ id, method.reply = some id ∧ encodeRecord d.schema id fields = .ok bytes ∧
      ∀ limits : Codec.Limits, bytes.length ≤ limits.maxPayload →
        (Value.struct fields).nestingAt (.struct id) ≤ limits.maxDepth →
          decodeStruct d.schema limits bytes id = .ok (fields.normalise d.schema id) := by
  cases h with
  | record hid h =>
    refine ⟨_, hid, h, fun limits hlength hnesting => ?_⟩
    exact Codec.decodeStruct_of_encodeRecord hs h hlength hnesting

/-! ## The way of a dispatch -/

/-- How a handler that has run is answered: it got arguments of the declared type, and its outcome
decides on the result. -/
structure Serves (d : Dispatcher H) (route : Route) (method : Schema.Method) (args : Record)
    (outcome : Outcome) (result : Except Failure Bytes) : Prop where
  conforms : Conforms d.schema (.struct method.args) (.struct args)
  ok : ∀ bytes, result = .ok bytes ↔ d.Replies method outcome bytes
  reads : ∀ fields bytes, outcome = .ok (.record fields) → result = .ok bytes →
    ∃ id, method.reply = some id ∧ encodeRecord d.schema id fields = .ok bytes ∧
      ∀ limits : Codec.Limits, bytes.length ≤ limits.maxPayload →
        (Value.struct fields).nestingAt (.struct id) ≤ limits.maxDepth →
          decodeStruct d.schema limits bytes id = .ok (fields.normalise d.schema id)
  error : ∀ failure, result = .error failure ↔ d.Fails route method outcome failure
  appError : ∀ failure, result = .error failure → failure.kind = .appError ∧
    (d.Raises method outcome failure.payload ∨ failure.payload = Utf8.encode failure.message)

/-- How a dispatch ends and which handlers have run, given what handlers answer. -/
inductive Answers (d : Dispatcher H) (handle : H → Record → Outcome) (route : Route)
    (payload : Bytes) : Except Failure Bytes → List (H × Record) → Prop
  /-- Without a handler neither the result nor what runs has to do with the payload. -/
  | notFound (hbound : d.registry.lookup route = none) :
    Answers d handle route payload (.error (d.notFound route)) []
  | badRequest {binding : Binding H} {e : Codec.DecodeError}
    (hbound : d.registry.lookup route = some binding)
    (hmethod : d.schema.methodOf? route = some binding.method)
    (hargs : decodeStruct d.schema d.config.limits payload binding.method.args = .error e) :
    Answers d handle route payload (.error (.ofMessage .badRequest e.message)) []
  | served {binding : Binding H} {args : Record} {result : Except Failure Bytes}
    (hbound : d.registry.lookup route = some binding)
    (hmethod : d.schema.methodOf? route = some binding.method)
    (hargs : decodeStruct d.schema d.config.limits payload binding.method.args = .ok args)
    (hserves : d.Serves route binding.method args (handle binding.handler args) result) :
    Answers d handle route payload result [(binding.handler, args)]

section

variable {handle : H → Record → Outcome} {payload : Bytes} {result : Except Failure Bytes}
  {runs : List (H × Record)} {args : Record}

/-- A handler that runs is answered by what its outcome becomes. -/
lemma serves_conclude (hs : d.schema.Ascends)
    (hargs : decodeStruct d.schema d.config.limits payload method.args = .ok args)
    (outcome : Outcome) :
    d.Serves route method args outcome (d.conclude route method outcome) where
  conforms := ((Codec.decodeStruct_eq_ok_iff hs).mp hargs).2.conforms hs
  ok bytes := conclude_eq_ok_iff
  reads fields bytes houtcome hresult := by
    have hreplies := conclude_eq_ok_iff.mp hresult
    rw [houtcome] at hreplies
    exact hreplies.reads hs
  error failure := conclude_eq_error_iff
  appError failure hresult := by
    have hfails := conclude_eq_error_iff.mp hresult
    exact ⟨hfails.kind, hfails.payload⟩

/-- Where a handler has run, the call ends well or with a failure of the application. -/
lemma Serves.status (h : d.Serves route method args outcome result) :
    Status.ofResult result = .ok ∨ Status.ofResult result = .failed .appError := by
  cases result with
  | ok bytes => exact .inl rfl
  | error failure => exact .inr (congrArg Status.failed (h.appError failure rfl).1)

/-- A route is not found just if it has no handler. -/
lemma Answers.notFound_iff (h : d.Answers handle route payload result runs) :
    Status.ofResult result = .failed .notFound ↔ d.registry.lookup route = none := by
  cases h with
  | notFound hbound => exact iff_of_true rfl hbound
  | badRequest hbound =>
    rw [hbound]
    constructor <;> rintro ⟨⟩
  | served hbound _ _ hserves =>
    rw [hbound]
    rcases hserves.status with hstatus | hstatus
    · simp [hstatus]
    · simp [hstatus]

/-- A call is a bad request just if its route has a handler and the payload does not write
arguments for it. -/
lemma Answers.badRequest_iff (h : d.Answers handle route payload result runs) :
    Status.ofResult result = .failed .badRequest ↔
      ∃ binding e, d.registry.lookup route = some binding ∧
        decodeStruct d.schema d.config.limits payload binding.method.args = .error e := by
  cases h with
  | notFound hbound =>
    rw [hbound]
    constructor
    · rintro ⟨⟩
    · rintro ⟨_, _, ⟨⟩, -⟩
  | badRequest hbound _ hargs => exact iff_of_true rfl ⟨_, _, hbound, hargs⟩
  | served hbound _ hargs hserves =>
    have hdecodes : ¬ ∃ binding e, d.registry.lookup route = some binding ∧
        decodeStruct d.schema d.config.limits payload binding.method.args = .error e := by
      rintro ⟨binding, e, hbinding, herror⟩
      rw [hbound] at hbinding
      cases hbinding
      rw [hargs] at herror
      cases herror
    refine iff_of_false (fun hstatus => ?_) hdecodes
    rcases hserves.status with hserved | hserved
    · rw [hserved] at hstatus
      cases hstatus
    · rw [hserved] at hstatus
      cases hstatus

/-! ## Dispatches that are watched -/

/-- What is performed for a call, the same at every host. -/
lemma perform_cases (d : Dispatcher H) (route : Route) (payload : Bytes) :
    (d.registry.lookup route = none ∧ ∀ {m : Type → Type} [Monad m] (host : Host H m),
        d.perform host route payload = pure (.error (d.notFound route))) ∨
      (∃ binding e, d.registry.lookup route = some binding ∧
        decodeStruct d.schema d.config.limits payload binding.method.args = .error e ∧
          ∀ {m : Type → Type} [Monad m] (host : Host H m), d.perform host route payload =
            pure (.error (.ofMessage .badRequest e.message))) ∨
      ∃ binding args, d.registry.lookup route = some binding ∧
        decodeStruct d.schema d.config.limits payload binding.method.args = .ok args ∧
          ∀ {m : Type → Type} [Monad m] (host : Host H m), d.perform host route payload = do
            return d.conclude route binding.method (← host.serve binding.handler args) := by
  cases hbound : d.registry.lookup route with
  | none =>
    refine .inl ⟨rfl, fun host => ?_⟩
    simp only [perform, hbound]
  | some binding =>
    cases hargs : decodeStruct d.schema d.config.limits payload binding.method.args with
    | error e =>
      refine .inr (.inl ⟨binding, e, rfl, hargs, fun host => ?_⟩)
      simp only [perform, hbound, arguments, hargs, Except.mapError]
    | ok args =>
      refine .inr (.inr ⟨binding, args, rfl, hargs, fun host => ?_⟩)
      simp only [perform, hbound, arguments, hargs, Except.mapError]

/-- What is performed for a call that is watched. -/
lemma run_perform_cases (d : Dispatcher H) (handle : H → Record → Outcome) (route : Route)
    (payload : Bytes) (before : Activity H) :
    (d.registry.lookup route = none ∧
        (d.perform (.watching handle) route payload).run before =
          (.error (d.notFound route), before)) ∨
      (∃ binding e, d.registry.lookup route = some binding ∧
        decodeStruct d.schema d.config.limits payload binding.method.args = .error e ∧
          (d.perform (.watching handle) route payload).run before =
            (.error (.ofMessage .badRequest e.message), before)) ∨
      ∃ binding args, d.registry.lookup route = some binding ∧
        decodeStruct d.schema d.config.limits payload binding.method.args = .ok args ∧
          (d.perform (.watching handle) route payload).run before =
            (d.conclude route binding.method (handle binding.handler args),
              before.extend [(binding.handler, args)] []) := by
  rcases perform_cases d route payload with ⟨hbound, hperform⟩ |
    ⟨binding, e, hbound, hargs, hperform⟩ | ⟨binding, args, hbound, hargs, hperform⟩
  · exact .inl ⟨hbound, by rw [hperform]; rfl⟩
  · exact .inr (.inl ⟨binding, e, hbound, hargs, by rw [hperform]; rfl⟩)
  · exact .inr (.inr ⟨binding, args, hbound, hargs, by rw [hperform]; rfl⟩)

/-- A dispatch is performed and then recorded. -/
lemma run_dispatch {before after : Activity H}
    (h : (d.perform (.watching handle) route payload).run before = (result, after)) :
    (d.dispatch (.watching handle) route payload).run before =
      (result, after.extend []
        (if d.config.metricsEnabled then [d.completion route result] else [])) := by
  have hrun : (d.dispatch (.watching handle) route payload).run before =
      (do if d.config.metricsEnabled then
            (Host.watching handle).record (d.completion route result)
          return result : StateM (Activity H) (Except Failure Bytes)).run after := by
    rw [dispatch, StateT.run_bind, h]
    rfl
  rw [hrun]
  split
  · rfl
  · rw [Activity.extend_nil]
    rfl

end

/-- **Typed calls.**  A dispatch ends in one of three ways.  A route without a handler is not found;
with a handler, a payload that does not write arguments is a bad request, and no handler runs in
either case.  Any other payload makes the handler of the route run, once and no other, on arguments
of the declared type, and its outcome is answered by a declared reply or is a failure of the
application. -/
theorem dispatch_answers {p : Package} (hp : Schema.resolve p = .ok d.schema)
    (hbuilt : d.registry.Built) (handle : H → Record → Outcome) (route : Route) (payload : Bytes)
    (before : Activity H) : ∃ result runs,
      (d.dispatch (.watching handle) route payload).run before =
        (result, before.extend runs
          (if d.config.metricsEnabled then [d.completion route result] else [])) ∧
      d.Answers handle route payload result runs ∧
      (Status.ofResult result = .failed .notFound ↔ d.registry.lookup route = none) ∧
      (Status.ofResult result = .failed .badRequest ↔
        ∃ binding e, d.registry.lookup route = some binding ∧
          decodeStruct d.schema d.config.limits payload binding.method.args = .error e) := by
  have hs := Schema.ascends_of_resolve hp
  obtain ⟨result, runs, hrun, hanswers⟩ : ∃ result runs,
      (d.perform (.watching handle) route payload).run before =
          (result, before.extend runs []) ∧
        d.Answers handle route payload result runs := by
    rcases run_perform_cases d handle route payload before with
      ⟨hbound, hrun⟩ | ⟨binding, e, hbound, hargs, hrun⟩ | ⟨binding, args, hbound, hargs, hrun⟩
    · exact ⟨_, [], by rw [hrun, Activity.extend_nil], .notFound hbound⟩
    · exact ⟨_, [], by rw [hrun, Activity.extend_nil],
        .badRequest hbound (hbuilt.sound route binding hbound) hargs⟩
    · exact ⟨_, _, hrun, .served hbound (hbuilt.sound route binding hbound) hargs
        (serves_conclude hs hargs _)⟩
  have hdispatch := run_dispatch hrun
  rw [Activity.extend_extend, List.append_nil, List.nil_append] at hdispatch
  exact ⟨result, runs, hdispatch, hanswers, hanswers.notFound_iff, hanswers.badRequest_iff⟩

/-- The handlers at the desk reply one weight. -/
def deskHandle (_ : String) (_ : Record) : Outcome :=
  .ok (.record (Record.ofList [(.ofNat 1, .present (.int .u16 ⟨900, by decide⟩))]))

/-- A weighing without a size makes the scales run, and their weight is the reply. -/
theorem dispatch_answers_weigh :
    (deskDispatcher.dispatch (.watching deskHandle) weighRoute [161, 44, 1]).run ⟨[], []⟩ =
        (.ok [161, 132, 3], ⟨[("scales", weighed)], [⟨weighRoute, .ok⟩]⟩) ∧
      deskDispatcher.Answers deskHandle weighRoute [161, 44, 1] (.ok [161, 132, 3])
        [("scales", weighed)] := by
  have hdispatch :
      (deskDispatcher.dispatch (.watching deskHandle) weighRoute [161, 44, 1]).run ⟨[], []⟩ =
        (.ok [161, 132, 3], ⟨[("scales", weighed)], [⟨weighRoute, .ok⟩]⟩) := by rfl
  obtain ⟨result, runs, hrun, hanswers, -⟩ := dispatch_answers Schema.resolve_desk built_desk
    deskHandle weighRoute [161, 44, 1] ⟨[], []⟩
  obtain ⟨hresult, hactivity⟩ := Prod.mk.inj (hdispatch.symm.trans hrun)
  have hruns : [("scales", weighed)] = runs := congrArg Activity.runs hactivity
  subst hresult hruns
  exact ⟨hdispatch, hanswers⟩

end Dispatcher

end SchemaRpc
