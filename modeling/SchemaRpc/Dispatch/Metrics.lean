/-
# Metrics

What dispatching records about itself: for every completed dispatch the route, if a handler is
bound to it, and the status.  Routes without a handler share one label, so that callers cannot
make up labels.
-/
import SchemaRpc.Dispatch.Route
import SchemaRpc.Envelope.Status

namespace SchemaRpc

/-- A completed dispatch as it is recorded. -/
structure Completion where
  route : Route
  status : Status
deriving DecidableEq

/-- The label of all routes without a handler. -/
def Route.unrouted : Route := ⟨"unrouted", "unrouted", "unrouted"⟩

/-- The labels of a route and their names. -/
def Route.labels (r : Route) : List (String × String) :=
  [("module", r.module), ("member", r.member), ("method", r.method)]

/-- The labels of a completed dispatch and their names. -/
def Completion.labels (c : Completion) : List (String × String) :=
  c.route.labels ++ [("status", c.status.name)]

/-- The completed dispatches, the latest first. -/
structure Metrics where
  completions : List Completion
deriving DecidableEq

namespace Metrics

/-- Nothing recorded. -/
def empty : Metrics := ⟨[]⟩

/-- The name under which completed dispatches are counted. -/
def counterName : String := "iop_dispatch_total"

/-- The name under which their durations are collected. -/
def durationName : String := "iop_dispatch_duration_seconds"

/-- Record a completed dispatch. -/
def add (m : Metrics) (c : Completion) : Metrics := ⟨c :: m.completions⟩

/-- How many dispatches completed in a given way. -/
def count (m : Metrics) (c : Completion) : Nat := m.completions.count c

/-- How many dispatches to a route completed. -/
def samples (m : Metrics) (route : Route) : Nat := (m.completions.map (·.route)).count route

/-- The key of a series: its name, and its labels in braces. -/
def seriesKey (name : String) (labels : List (String × String)) : String :=
  name ++ "\x7b" ++ ",".intercalate (labels.map fun (label, value) => label ++ "=" ++ value) ++
    "\x7d"

/-- The counters and their values. -/
def counters (m : Metrics) : List (String × Nat) :=
  m.completions.eraseDups.map fun c => (seriesKey counterName c.labels, m.count c)

/-- The collections of durations and their sizes. -/
def durations (m : Metrics) : List (String × Nat) :=
  (m.completions.map (·.route)).eraseDups.map fun r =>
    (seriesKey durationName r.labels, m.samples r)

end Metrics

end SchemaRpc
