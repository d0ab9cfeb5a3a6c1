/-
# Counted dispatches

Every dispatch is counted once, when it completes, whichever way it was asked for: by a route, by a
frame, or by a call.  The label of a counter is a bound route or the one label of all routes without
a handler, so that callers cannot make up labels; and the counters of a bound route tell how the
dispatches to it ended.

* `operate_of_refuses` and `operate_of_request`: an operation is the dispatch of the request that it
  comes to, or nothing at all,
* `run_forM_operate`: what is recorded during a run is what was executed, in its order,
* `metrics_account`: what the counters tell of a run.

Handlers may keep a state of their own, but they do not dispatch.
-/
import Mathlib.Algebra.BigOperators.Group.List.Lemmas
import Mathlib.Algebra.GroupWithZero.Nat
import SchemaRpc.Proofs.Dispatch.Answers

namespace SchemaRpc

open Codec (encodeRecord)

/-! ## Counters -/

/-- Completed dispatches that differ have different labels. -/
lemma Completion.labels_injective : Function.Injective Completion.labels := by
  have hname : Function.Injective Status.name := by
    rintro (_ | _ | _ | _) (_ | _ | _ | _) h <;> simp [Status.name, FailureKind.name] at h ⊢
  rintro ⟨⟨_, _, _⟩, status⟩ ⟨⟨_, _, _⟩, status'⟩ h
  simp only [labels, Route.labels, List.cons_append, List.nil_append, List.cons.injEq,
    Prod.mk.injEq, true_and, and_true] at h
  obtain ⟨rfl, rfl, rfl, h⟩ := h
  rw [hname h]

namespace Metrics

/-- Record completed dispatches, one after the other. -/
def extend (m : Metrics) (completions : List Completion) : Metrics :=
  ⟨completions.reverse ++ m.completions⟩

variable (m : Metrics) (completions completions' : List Completion)

@[simp] lemma extend_nil : m.extend [] = m := rfl

lemma extend_extend :
    (m.extend completions).extend completions' = m.extend (completions ++ completions') := by
  simp [extend]

lemma mem_extend_empty {c : Completion} :
    c ∈ (empty.extend completions).completions ↔ c ∈ completions := by
  simp [extend, empty]

lemma count_extend_empty (c : Completion) :
    (empty.extend completions).count c = completions.count c := by
  simp [extend, empty, count]

lemma nodup_eraseDups : (l : List Completion) → l.eraseDups.Nodup
  | [] => List.nodup_nil
  | c :: l => by
    rw [List.eraseDups_cons, List.nodup_cons, List.mem_eraseDups]
    exact ⟨by simp, nodup_eraseDups _⟩
termination_by l => l.length
decreasing_by exact Nat.lt_succ_of_le (List.length_filter_le _ _)

/-- The counters of all labels together count every completed dispatch. -/
lemma sum_counters : (m.counters.map (·.2)).sum = m.completions.length := by
  have hcounters : m.counters.map (·.2) = m.completions.eraseDups.map m.completions.count := by
    simp [counters, count]
  have hperm : m.completions.eraseDups.Perm m.completions.dedup :=
    (List.perm_ext_iff_of_nodup (nodup_eraseDups _) (List.nodup_dedup _)).mpr fun c => by
      rw [List.mem_eraseDups, List.mem_dedup]
  rw [hcounters, (hperm.map _).sum_eq, List.sum_map_count_dedup_eq_length]

end Metrics

/-! ## Operations -/

/-- What callers ask of a dispatcher. -/
inductive Operation where
  /-- To dispatch a payload on a route. -/
  | dispatch (route : Route) (payload : Bytes)
  /-- To answer a frame. -/
  | frame (frame : Bytes)
  /-- To call the method of a route. -/
  | call (route : Route) (args : Record)

/-- A dispatch that has been executed: its route and the status that it ended with. -/
structure Execution where
  route : Route
  status : Status
deriving DecidableEq

namespace Host

variable {H σ : Type}

/-- A host at which handlers run on a state of their own, and which records nothing. -/
def silent (serve : H → Record → StateM σ Outcome) : Host H (StateM σ) where
  serve := serve
  record _ := return

/-- A host at which handlers run on a state of their own, and which keeps metrics. -/
def metered (serve : H → Record → StateM σ Outcome) : Host H (StateM (σ × Metrics)) where
  serve handler args := fun (s, m) =>
    let (outcome, s') := (serve handler args).run s
    (outcome, s', m)
  record completion := modify fun (s, m) => (s, m.add completion)

end Host

namespace Dispatcher

variable {H σ : Type} (d : Dispatcher H)

/-- Do what is asked for. -/
def operate {m : Type → Type} [Monad m] (host : Host H m) : Operation → m Unit
  | .dispatch route payload => do let _ ← d.dispatch host route payload
  | .frame frame => do let _ ← d.dispatchFrame host frame
  | .call route args => do let _ ← d.call host route args

/-- The request that an operation comes to, if it comes to one. -/
def request? : Operation → Option Request
  | .dispatch route payload => some (.ofRoute route payload)
  | .frame frame => (Request.decode frame).toOption
  | .call route args => do
    let method ← d.schema.methodOf? route
    let payload ← (encodeRecord d.schema method.args args).toOption
    let _ ← (Request.ofRoute route payload).encode.toOption
    return .ofRoute route payload

/-- The operation is refused before anything is dispatched: its frame is malformed, the method that
it calls is not declared, or the arguments for the method do not encode. -/
inductive Refuses : Operation → Prop
  | malformed {frame : Bytes} {e : Envelope.FrameError} (h : Request.decode frame = .error e) :
    Refuses (.frame frame)
  | undeclared {route : Route} {args : Record} (h : d.schema.methodOf? route = none) :
    Refuses (.call route args)
  | unencodable {route : Route} {args : Record} {method : Schema.Method} {e : Codec.EncodeError}
    (hmethod : d.schema.methodOf? route = some method)
    (h : d.requestFrame route method args = .error e) : Refuses (.call route args)

variable {d}

/-- A call comes to the request of its route, if its arguments encode and fit a frame. -/
lemma request?_call_eq_some_iff {route : Route} {args : Record} {request : Request} :
    d.request? (.call route args) = some request ↔ ∃ method payload frame,
      d.schema.methodOf? route = some method ∧
        encodeRecord d.schema method.args args = .ok payload ∧
          (Request.ofRoute route payload).encode = .ok frame ∧
            .ofRoute route payload = request := by
  simp [request?, Option.bind_eq_some_iff, Outcome.toOption_eq_some_iff]

lemma requestFrame_eq_ok_iff {route : Route} {method : Schema.Method} {args : Record}
    {frame : Bytes} : d.requestFrame route method args = .ok frame ↔
      ∃ payload, encodeRecord d.schema method.args args = .ok payload ∧
        (Request.ofRoute route payload).encode = .ok frame :=
  Outcome.bind_eq_ok_iff

/-- An operation comes to a request unless it is refused. -/
lemma request?_eq_none_iff {op : Operation} : d.request? op = none ↔ d.Refuses op := by
  constructor
  · intro h
    cases op with
    | dispatch route payload => cases h
    | frame frame =>
      cases hrequest : Request.decode frame with
      | error e => exact .malformed hrequest
      | ok request =>
        rw [request?, hrequest] at h
        cases h
    | call route args =>
      cases hmethod : d.schema.methodOf? route with
      | none => exact .undeclared hmethod
      | some method =>
        cases hframe : d.requestFrame route method args with
        | error e => exact .unencodable hmethod hframe
        | ok frame =>
          obtain ⟨payload, hpayload, hencode⟩ := requestFrame_eq_ok_iff.mp hframe
          have hsome := request?_call_eq_some_iff.mpr
            ⟨method, payload, frame, hmethod, hpayload, hencode, rfl⟩
          rw [h] at hsome
          cases hsome
  · intro h
    rw [Option.eq_none_iff_forall_ne_some]
    intro request hrequest
    cases h with
    | malformed h =>
      rw [request?, h] at hrequest
      cases hrequest
    | undeclared h =>
      obtain ⟨method, -, -, hmethod, -⟩ := request?_call_eq_some_iff.mp hrequest
      rw [h] at hmethod
      cases hmethod
    | unencodable hmethod h =>
      obtain ⟨method', payload, frame, hmethod', hpayload, hencode, -⟩ :=
        request?_call_eq_some_iff.mp hrequest
      rw [hmethod] at hmethod'
      cases hmethod'
      rw [requestFrame_eq_ok_iff.mpr ⟨payload, hpayload, hencode⟩] at h
      cases h

section

variable {m : Type → Type} [Monad m] [LawfulMonad m] (host : Host H m) {op : Operation}

/-- Nothing is done for an operation that is refused. -/
lemma operate_of_refuses (h : d.Refuses op) : d.operate host op = pure () := by
  cases h with
  | malformed h => simp only [operate, dispatchFrame, h, pure_bind]
  | undeclared h => simp only [operate, call, h, pure_bind]
  | unencodable hmethod h => simp only [operate, call, hmethod, h, pure_bind]

/-- Any other operation is the dispatch of the request that it comes to. -/
lemma operate_of_request {request : Request} (h : d.request? op = some request) :
    d.operate host op = (do let _ ← d.dispatch host request.path request.payload) := by
  cases op with
  | dispatch route payload =>
    cases h
    rfl
  | frame frame =>
    have hrequest : Request.decode frame = .ok request := Outcome.toOption_eq_some_iff.mp h
    simp only [operate, dispatchFrame, hrequest, bind_assoc, pure_bind]
  | call route args =>
    obtain ⟨method, payload, frame, hmethod, hpayload, hencode, rfl⟩ :=
      request?_call_eq_some_iff.mp h
    have hframe := requestFrame_eq_ok_iff.mpr ⟨payload, hpayload, hencode⟩
    have hrequest := Request.decode_of_encode hencode
    simp only [operate, call, hmethod, hframe, dispatchFrame, hrequest, bind_assoc, pure_bind]

end

/-! ## Executions -/

variable (d) (serve : H → Record → StateM σ Outcome)

/-- The dispatch that an operation executes, if it executes one. -/
def executed (op : Operation) : StateM σ (List Execution) :=
  match d.request? op with
  | none => return []
  | some request => do
    let result ← d.dispatch (.silent serve) request.path request.payload
    return [⟨request.path, .ofResult result⟩]

/-- The dispatches that operations execute, one operation after the other. -/
def executions : List Operation → StateM σ (List Execution)
  | [] => return []
  | op :: ops => do
    let log ← d.executed serve op
    return log ++ (← executions ops)

/-- How an execution is recorded. -/
def recorded (e : Execution) : Completion :=
  ⟨if (d.registry.lookup e.route).isSome then e.route else .unrouted, e.status⟩

/-- The metrics after executions. -/
def metricsAfter (log : List Execution) (m : Metrics) : Metrics :=
  if d.config.metricsEnabled then m.extend (log.map d.recorded) else m

variable {d serve}

lemma metricsAfter_nil (m : Metrics) : d.metricsAfter [] m = m := by simp [metricsAfter]

lemma metricsAfter_append (log log' : List Execution) (m : Metrics) :
    d.metricsAfter (log ++ log') m = d.metricsAfter log' (d.metricsAfter log m) := by
  by_cases h : d.config.metricsEnabled <;> simp [metricsAfter, h, Metrics.extend_extend]

/-- At a host that records nothing, a dispatch is what is performed. -/
lemma dispatch_silent (route : Route) (payload : Bytes) :
    d.dispatch (.silent serve) route payload = d.perform (.silent serve) route payload := by
  have hnothing : ∀ result : Except Failure Bytes, (do
      if d.config.metricsEnabled then (Host.silent serve).record (d.completion route result)
      return result : StateM σ (Except Failure Bytes)) = pure result := by
    intro result
    split <;> rfl
  simp only [dispatch, hnothing, bind_pure]

section

variable {route : Route} {payload : Bytes} {result : Except Failure Bytes} {log : List Execution}
  {s s' : σ}

/-- What is performed has nothing to do with the metrics. -/
lemma run_perform_metered (h : (d.perform (.silent serve) route payload).run s = (result, s'))
    (m : Metrics) :
    (d.perform (.metered serve) route payload).run (s, m) = (result, s', m) := by
  rcases perform_cases d route payload with ⟨-, hperform⟩ | ⟨_, _, -, -, hperform⟩ |
    ⟨_, _, -, -, hperform⟩
  -- no more is asked of a host than to run a handler
  all_goals
    rw [hperform] at h ⊢
    cases h
    rfl

/-- A dispatch ends as it does without metrics, and is recorded. -/
lemma run_dispatch_metered (h : (d.dispatch (.silent serve) route payload).run s = (result, s'))
    (m : Metrics) : (d.dispatch (.metered serve) route payload).run (s, m) =
      (result, s', d.metricsAfter [⟨route, .ofResult result⟩] m) := by
  rw [dispatch_silent] at h
  rw [dispatch, StateT.run_bind, run_perform_metered h]
  cases henabled : d.config.metricsEnabled with
  | false =>
    simp only [henabled, metricsAfter]
    rfl
  | true =>
    simp only [henabled, metricsAfter]
    rfl

/-- An operation executes the dispatch of the request that it comes to. -/
lemma executed_cases {op : Operation} (h : (d.executed serve op).run s = (log, s')) :
    (d.request? op = none ∧ log = [] ∧ s' = s) ∨
      ∃ request result, d.request? op = some request ∧
        (d.dispatch (.silent serve) request.path request.payload).run s = (result, s') ∧
          log = [⟨request.path, .ofResult result⟩] := by
  cases hrequest : d.request? op with
  | none =>
    rw [executed, hrequest] at h
    cases h
    exact .inl ⟨rfl, rfl, rfl⟩
  | some request =>
    rcases hdispatch : (d.dispatch (.silent serve) request.path request.payload).run s with
      ⟨result, s₁⟩
    simp only [executed, hrequest, StateT.run_bind, hdispatch] at h
    cases h
    exact .inr ⟨request, result, rfl, hdispatch, rfl⟩

lemma executions_cons {op : Operation} {ops : List Operation}
    (h : (d.executions serve (op :: ops)).run s = (log, s')) :
    ∃ first rest s₁, (d.executed serve op).run s = (first, s₁) ∧
      (d.executions serve ops).run s₁ = (rest, s') ∧ log = first ++ rest := by
  rcases hop : (d.executed serve op).run s with ⟨first, s₁⟩
  rcases hops : (d.executions serve ops).run s₁ with ⟨rest, s₂⟩
  have hrun : (d.executions serve (op :: ops)).run s = (first ++ rest, s₂) := by
    rw [executions, StateT.run_bind, hop]
    show (first ++ ((d.executions serve ops).run s₁).1, ((d.executions serve ops).run s₁).2) = _
    rw [hops]
  rw [hrun] at h
  cases h
  exact ⟨first, rest, s₁, rfl, hops, rfl⟩

/-- **One operation.**  What it executes is recorded. -/
lemma run_operate {op : Operation} (h : (d.executed serve op).run s = (log, s')) (m : Metrics) :
    (d.operate (.metered serve) op).run (s, m) = ((), s', d.metricsAfter log m) := by
  rcases executed_cases h with ⟨hrequest, rfl, rfl⟩ | ⟨request, result, hrequest, hdispatch, rfl⟩
  · rw [operate_of_refuses _ (request?_eq_none_iff.mp hrequest), metricsAfter_nil]
    rfl
  · rw [operate_of_request _ hrequest, StateT.run_bind, run_dispatch_metered hdispatch]
    rfl

/-- **A run of operations.**  What they execute is recorded, in its order. -/
lemma run_forM_operate {ops : List Operation} (h : (d.executions serve ops).run s = (log, s'))
    (m : Metrics) :
    (ops.forM (d.operate (.metered serve))).run (s, m) = ((), s', d.metricsAfter log m) := by
  induction ops generalizing s m log with
  | nil =>
    cases h
    rw [metricsAfter_nil]
    rfl
  | cons op ops ih =>
    obtain ⟨first, rest, s₁, hop, hops, rfl⟩ := executions_cons h
    show (d.operate (.metered serve) op >>= fun _ => ops.forM (d.operate (.metered serve))).run
      (s, m) = _
    rw [StateT.run_bind, run_operate hop, metricsAfter_append]
    exact ih hops _

/-- There is one execution for each request that operations come to. -/
lemma routes_executions {ops : List Operation} (h : (d.executions serve ops).run s = (log, s')) :
    log.map (·.route) = (ops.filterMap d.request?).map (·.path) := by
  induction ops generalizing s log with
  | nil =>
    cases h
    rfl
  | cons op ops ih =>
    obtain ⟨first, rest, s₁, hop, hops, rfl⟩ := executions_cons h
    rcases executed_cases hop with ⟨hrequest, rfl, rfl⟩ | ⟨request, _, hrequest, -, rfl⟩
    · rw [List.nil_append, List.filterMap_cons_none hrequest]
      exact ih hops
    · rw [List.filterMap_cons_some hrequest, List.map_cons, ← ih hops]
      rfl

/-- A dispatch ends with a route that is not found just if the route has no handler. -/
lemma status_dispatch_silent
    (h : (d.dispatch (.silent serve) route payload).run s = (result, s')) :
    Status.ofResult result = .failed .notFound ↔ d.registry.lookup route = none := by
  rw [dispatch_silent] at h
  rcases perform_cases d route payload with ⟨hbound, hperform⟩ | ⟨_, _, hbound, -, hperform⟩ |
    ⟨binding, args, hbound, -, hperform⟩
  · rw [hperform] at h
    cases h
    exact iff_of_true rfl hbound
  · rw [hperform] at h
    cases h
    rw [hbound]
    constructor <;> rintro ⟨⟩
  · rw [hperform] at h
    obtain ⟨hresult, -⟩ := Prod.mk.inj h
    have hanswer : Status.ofResult result = .ok ∨ Status.ofResult result = .failed .appError :=
      hresult ▸ status_conclude d route binding.method _
    rw [hbound]
    rcases hanswer with hstatus | hstatus
    · simp [hstatus]
    · simp [hstatus]

/-- The executions that did not find their route are those on a route without a handler. -/
lemma status_executions {ops : List Operation} (h : (d.executions serve ops).run s = (log, s')) :
    ∀ e ∈ log, e.status = .failed .notFound ↔ d.registry.lookup e.route = none := by
  induction ops generalizing s log with
  | nil =>
    cases h
    simp
  | cons op ops ih =>
    obtain ⟨first, rest, s₁, hop, hops, rfl⟩ := executions_cons h
    rw [List.forall_mem_append]
    refine ⟨?_, ih hops⟩
    rcases executed_cases hop with ⟨-, rfl, -⟩ | ⟨request, result, -, hdispatch, rfl⟩
    · simp
    · rw [List.forall_mem_singleton]
      exact status_dispatch_silent hdispatch

end

/-! ## What the counters tell -/

/-- The metrics account for executions. -/
structure Accounts (d : Dispatcher H) (log : List Execution) (m : Metrics) : Prop where
  /-- All counters together count every execution. -/
  total : (m.counters.map (·.2)).sum = log.length
  /-- Labels are bound routes and the label of the routes without a handler. -/
  labels : ∀ c ∈ m.completions, (d.registry.lookup c.route).isSome ∨ c.route = .unrouted
  /-- Unless it is a bound route, that label only tells of routes that were not found. -/
  unrouted : d.registry.lookup .unrouted = none →
    ∀ c ∈ m.completions, c.route = .unrouted → c.status = .failed .notFound
  /-- The counters of a bound route tell how often its dispatches ended how. -/
  bound : ∀ route status, (d.registry.lookup route).isSome →
    ¬ (route = .unrouted ∧ status = .failed .notFound) →
      m.count ⟨route, status⟩ = log.count ⟨route, status⟩
  /-- One counter tells of the dispatches to routes without a handler. -/
  notFound : m.count ⟨.unrouted, .failed .notFound⟩ =
    log.countP fun e => (d.registry.lookup e.route).isNone

section

variable {log : List Execution} {e : Execution}

lemma recorded_of_isSome (h : (d.registry.lookup e.route).isSome) :
    d.recorded e = ⟨e.route, e.status⟩ := by
  rw [recorded, if_pos h]

lemma recorded_of_eq_none (h : d.registry.lookup e.route = none) :
    d.recorded e = ⟨.unrouted, e.status⟩ := by
  simp [recorded, h]

/-- What is recorded under a bound route was executed there, unless it may be a route that was not
found. -/
lemma recorded_eq_iff (he : e.status = .failed .notFound ↔ d.registry.lookup e.route = none)
    {route : Route} {status : Status} (hbound : (d.registry.lookup route).isSome)
    (hother : ¬ (route = .unrouted ∧ status = .failed .notFound)) :
    d.recorded e = ⟨route, status⟩ ↔ e = ⟨route, status⟩ := by
  constructor
  · intro h
    cases hlookup : d.registry.lookup e.route with
    | none =>
      rw [recorded_of_eq_none hlookup] at h
      obtain ⟨rfl, rfl⟩ := Completion.mk.inj h
      exact absurd ⟨rfl, he.mpr hlookup⟩ hother
    | some binding =>
      rw [recorded_of_isSome (by rw [hlookup]; rfl)] at h
      obtain ⟨rfl, rfl⟩ := Completion.mk.inj h
      rfl
  · rintro rfl
    exact recorded_of_isSome hbound

/-- What is recorded as not found had no handler. -/
lemma recorded_eq_notFound_iff
    (he : e.status = .failed .notFound ↔ d.registry.lookup e.route = none) :
    d.recorded e = ⟨.unrouted, .failed .notFound⟩ ↔ d.registry.lookup e.route = none := by
  constructor
  · intro h
    exact he.mp (congrArg Completion.status h)
  · intro h
    rw [recorded_of_eq_none h, he.mpr h]

/-- What is recorded of executions accounts for them, if the routes that are not found are those
without a handler. -/
lemma accounts_recorded
    (h : ∀ e ∈ log, e.status = .failed .notFound ↔ d.registry.lookup e.route = none) :
    d.Accounts log (Metrics.empty.extend (log.map d.recorded)) where
  total := by
    rw [Metrics.sum_counters]
    simp [Metrics.extend, Metrics.empty]
  labels c hc := by
    obtain ⟨e, -, rfl⟩ := List.mem_map.mp ((Metrics.mem_extend_empty _).mp hc)
    cases hlookup : d.registry.lookup e.route with
    | none => exact .inr (by rw [recorded_of_eq_none hlookup])
    | some binding =>
      have hbound : (d.registry.lookup e.route).isSome := by rw [hlookup]; rfl
      exact .inl (by rwa [recorded_of_isSome hbound])
  unrouted hfree c hc hroute := by
    obtain ⟨e, he, rfl⟩ := List.mem_map.mp ((Metrics.mem_extend_empty _).mp hc)
    refine (h e he).mpr ?_
    by_contra hne
    have hroute' : e.route = .unrouted := by
      rwa [recorded_of_isSome (Option.isSome_iff_ne_none.mpr hne)] at hroute
    rw [hroute'] at hne
    exact hne hfree
  bound route status hbound hother := by
    rw [Metrics.count_extend_empty, List.count, List.count, List.countP_map]
    refine List.countP_congr fun e he => ?_
    simpa using recorded_eq_iff (h e he) hbound hother
  notFound := by
    rw [Metrics.count_extend_empty, List.count, List.countP_map]
    refine List.countP_congr fun e he => ?_
    simpa using recorded_eq_notFound_iff (h e he)

/-- **Metrics.**  An operation that is refused leaves no trace.  However many operations follow one
another, with metrics enabled the counters account for the dispatches that they execute, one for each
request that they come to; with metrics disabled nothing is recorded. -/
theorem metrics_account (d : Dispatcher H) (serve : H → Record → StateM σ Outcome)
    (ops : List Operation) (s : σ) :
    (∀ op, d.Refuses op → d.operate (.metered serve) op = pure ()) ∧
    ∃ log s' m, (d.executions serve ops).run s = (log, s') ∧
      (ops.forM (d.operate (.metered serve))).run (s, .empty) = ((), s', m) ∧
        log.map (·.route) = (ops.filterMap d.request?).map (·.path) ∧
          if d.config.metricsEnabled then d.Accounts log m else m = .empty := by
  refine ⟨fun op hrefuses => operate_of_refuses _ hrefuses, ?_⟩
  rcases hlog : (d.executions serve ops).run s with ⟨log, s'⟩
  refine ⟨log, s', _, rfl, run_forM_operate hlog _, routes_executions hlog, ?_⟩
  by_cases h : d.config.metricsEnabled
  · simp only [metricsAfter, h, if_true]
    exact accounts_recorded (status_executions hlog)
  · simp [metricsAfter, h]

end

/-- The handlers at the desk answer as ever, and count how often they run. -/
def deskServe (handler : String) (args : Record) : StateM Nat Outcome := do
  modify (· + 1)
  return deskHandle handler args

/-- A route that is not declared at the desk. -/
def atticRoute : Route := ⟨"Attic", "front", "zap"⟩

/-- A weighing, one without arguments, an empty frame, a call in the attic and a dispatch there. -/
def deskOperations : List Operation :=
  [.dispatch weighRoute [161, 44, 1], .dispatch weighRoute [], .frame [], .call atticRoute weighArgs,
    .dispatch atticRoute []]

/-- At the desk, two of the operations are refused, the scales run once, and the other dispatches are
accounted for. -/
theorem metrics_account_desk :
    (deskDispatcher.operate (.metered deskServe) (.frame []) = pure () ∧
      deskDispatcher.operate (.metered deskServe) (.call atticRoute weighArgs) = pure ()) ∧
    ∃ m, (deskOperations.forM (deskDispatcher.operate (.metered deskServe))).run (0, .empty) =
        ((), 1, m) ∧
      m.completions = [⟨.unrouted, .failed .notFound⟩, ⟨weighRoute, .failed .badRequest⟩,
        ⟨weighRoute, .ok⟩] ∧
      deskDispatcher.Accounts [⟨weighRoute, .ok⟩, ⟨weighRoute, .failed .badRequest⟩,
        ⟨atticRoute, .failed .notFound⟩] m := by
  obtain ⟨hrefused, log, s', m, hlog, hrun, -, haccounts⟩ :=
    metrics_account deskDispatcher deskServe deskOperations 0
  have hexecutions : (deskDispatcher.executions deskServe deskOperations).run 0 =
      ([⟨weighRoute, .ok⟩, ⟨weighRoute, .failed .badRequest⟩, ⟨atticRoute, .failed .notFound⟩],
        1) := by rfl
  obtain ⟨rfl, rfl⟩ := Prod.mk.inj (hexecutions.symm.trans hlog)
  refine ⟨⟨hrefused _ (.malformed rfl), hrefused _ (.undeclared rfl)⟩, m, hrun, ?_, haccounts⟩
  have hmetrics : (deskOperations.forM (deskDispatcher.operate (.metered deskServe))).run
      (0, .empty) = ((), 1, ⟨[⟨.unrouted, .failed .notFound⟩, ⟨weighRoute, .failed .badRequest⟩,
        ⟨weighRoute, .ok⟩]⟩) := by rfl
  obtain rfl : _ = m := congrArg (·.2.2) (hmetrics.symm.trans hrun)
  rfl

/-- A package with a method whose route is named like the label of routes without a handler. -/
def lookalike : Package := ⟨"lookalike", [
  .module "unrouted" [⟨"unrouted", "Unrouted", none⟩],
  .interface "Unrouted" [⟨"unrouted", none, [], none, none⟩]]⟩

/-- The schema of the package. -/
def lookalikeSchema : Schema where
  package := "lookalike"
  fingerprint := Schema.fingerprintOf lookalike
  enums := []
  unions := []
  structs := [⟨"Unrouted.unroutedArgs", []⟩]
  interfaces := [⟨"Unrouted", [⟨"unrouted", .ofNat 1, 0, none, none⟩]⟩]
  modules := [⟨"unrouted", [⟨"unrouted", .ofNat 1, 0⟩]⟩]
  typeNames := [("Unrouted.unroutedArgs", .struct 0)]
  interfaceNames := [("Unrouted", 0)]

/-- A dispatcher of the package with a handler for its method. -/
def lookalikeDispatcher : Dispatcher String :=
  ⟨⟨lookalikeSchema, .cons .unrouted (fun _ h => nomatch h)
    ⟨⟨"unrouted", .ofNat 1, 0, none, none⟩, "handler"⟩ .nil⟩, .default⟩

/-- Its handler has nothing to reply. -/
def lookalikeServe (_ : String) (_ : Record) : StateM Unit Outcome := return .ok .void

/-- A dispatch on the route that is bound, and one on a route that is not declared. -/
def lookalikeOperations : List Operation := [.dispatch .unrouted [], .dispatch atticRoute []]

/-- A bound route that is named like the label of routes without a handler is counted as not found
when another route is not found, although no dispatch to it ended so. -/
theorem count_lookalike :
    Schema.resolve lookalike = .ok lookalikeDispatcher.schema ∧
      lookalikeDispatcher.registry.Built ∧ lookalikeDispatcher.config.metricsEnabled ∧
        (lookalikeDispatcher.registry.lookup .unrouted).isSome ∧
    ∃ log s' m,
      (lookalikeDispatcher.executions lookalikeServe lookalikeOperations).run () = (log, s') ∧
      (lookalikeOperations.forM (lookalikeDispatcher.operate (.metered lookalikeServe))).run
        ((), .empty) = ((), s', m) ∧
      m.count ⟨.unrouted, .failed .notFound⟩ = 1 ∧
        log.count ⟨.unrouted, .failed .notFound⟩ = 0 := by
  have himplement : Registry.implement .unrouted "handler" (.ofSchema lookalikeSchema) =
      .ok () lookalikeDispatcher.registry := by rfl
  exact ⟨rfl, .implement (.ofSchema _) (.inl ⟨(), himplement⟩), rfl, rfl, _, _, _, rfl, rfl, rfl,
    rfl⟩

end Dispatcher

end SchemaRpc
