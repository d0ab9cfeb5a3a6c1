/-
# Status of a response

A call ends well or fails in one of three ways.  A failure carries a message and the bytes
that go back to the caller: the exception struct of the method if the handler raised it, and
the message itself otherwise.
-/
import SchemaRpc.Utf8

namespace SchemaRpc

/-- How a call fails. -/
inductive FailureKind where
  /-- No such module, member or method, or no handler bound to it. -/
  | notFound
  /-- The request or its arguments do not decode. -/
  | badRequest
  /-- The handler failed, or its reply does not fit the method. -/
  | appError
deriving DecidableEq

/-- The word for a kind of failure. -/
def FailureKind.name : FailureKind → String
  | .notFound => "not_found"
  | .badRequest => "bad_request"
  | .appError => "app_error"

/-- How a call ends. -/
inductive Status where
  | ok
  | failed (kind : FailureKind)
deriving DecidableEq

namespace Status

/-- The number that stands for a status in a response. -/
def code : Status → Nat
  | ok => 0
  | failed .notFound => 1
  | failed .badRequest => 2
  | failed .appError => 3

/-- The status that a number stands for. -/
def ofCode? : Int → Option Status
  | 0 => some ok
  | 1 => some (failed .notFound)
  | 2 => some (failed .badRequest)
  | 3 => some (failed .appError)
  | _ => none

/-- The word for a status. -/
def name : Status → String
  | ok => "ok"
  | failed kind => kind.name

/-- All statuses. -/
def all : List Status := [ok, failed .notFound, failed .badRequest, failed .appError]

@[simp] theorem ofCode?_code (s : Status) : ofCode? s.code = some s := by
  rcases s with _ | _ | _ | _ <;> rfl

theorem ofCode?_eq_some_iff {n : Int} {s : Status} : ofCode? n = some s ↔ n = s.code := by
  constructor
  · intro h
    unfold ofCode? at h
    split at h <;> simp_all [code] <;> subst h <;> rfl
  · rintro rfl
    exact ofCode?_code s

end Status

/-- A failed call. -/
structure Failure where
  kind : FailureKind
  message : String
  /-- What goes back to the caller. -/
  payload : Bytes
deriving DecidableEq

namespace Failure

/-- A failure whose payload is its message. -/
def ofMessage (kind : FailureKind) (message : String) : Failure :=
  ⟨kind, message, Utf8.encode message⟩

/-- A failure that carries the exception struct of its method. -/
def exception (payload : Bytes) : Failure := ⟨.appError, "handler raised an exception", payload⟩

/-- The wording of a failure. -/
def describe (f : Failure) : String := s!"{f.kind.name}: {f.message}"

end Failure

end SchemaRpc
