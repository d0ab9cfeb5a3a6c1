/-
# Registries

A registry binds handlers to routes that a schema declares.  A method is bound at most once, and
all methods of a member can be bound together while none of them is.  Handlers are of any type;
the registry only keeps them.
-/
import SchemaRpc.Dispatch.Route
import SchemaRpc.Schema.Basic

namespace SchemaRpc

/-- A method with its handler. -/
structure Binding (H : Type) where
  method : Schema.Method
  handler : H

/-- The handlers bound to routes of a schema. -/
structure Registry (H : Type) where
  schema : Schema
  bindings : Ascending Route (Binding H) none

/-- Why a handler cannot be bound. -/
inductive BindError where
  /-- The method has a handler already. -/
  | methodTaken (route : Route)
  /-- A method of the member has a handler already. -/
  | memberTaken (module member : String)
  | unknownModule (route : Route)
  | unknownMember (route : Route)
  | unknownMethod (route : Route) (interface : String)
deriving DecidableEq

/-- The wording of an error. -/
def BindError.message : BindError → String
  | .methodTaken route => s!"duplicate registration for {route.text}"
  | .memberTaken module member => s!"duplicate registration for {module}.{member}"
  | .unknownModule route => s!"cannot bind {route.text}: no module '{route.module}'"
  | .unknownMember route =>
    s!"cannot bind {route.text}: module '{route.module}' has no member '{route.member}'"
  | .unknownMethod route interface =>
    s!"cannot bind {route.text}: interface '{interface}' has no method '{route.method}'"

/-- The name of the kind of an error. -/
def BindError.kindName : BindError → String
  | .methodTaken .. | .memberTaken .. => "DuplicateRegistration"
  | .unknownModule .. | .unknownMember .. | .unknownMethod .. => "UnknownRoute"

namespace Schema

/-- The method of a route. -/
def methodOf? (s : Schema) (route : Route) : Option Method :=
  s.route? route.module route.member route.method

/-- The method of a route, or the first name on the way that is not declared. -/
def findMethod (s : Schema) (route : Route) : Except BindError Method :=
  match s.module? route.module with
  | none => .error (.unknownModule route)
  | some module =>
    match module.member? route.member with
    | none => .error (.unknownMember route)
    | some member =>
      let interface := s.interfaceType member.interface
      match interface.method? route.method with
      | none => .error (.unknownMethod route interface.name)
      | some method => .ok method

/-- All declared routes: modules in the order of their declaration, members and methods in the
order of their tags. -/
def routes (s : Schema) : List Route :=
  s.modules.flatMap fun module =>
    module.members.flatMap fun member =>
      (s.interfaceType member.interface).methods.map fun method =>
        ⟨module.name, member.name, method.name⟩

end Schema

/-- Operations that bind handlers. One that fails keeps what was bound before it failed. -/
abbrev Setup (H : Type) := EStateM BindError (Registry H)

namespace Registry

variable {H : Type}

/-- A registry without handlers. -/
def ofSchema (schema : Schema) : Registry H := ⟨schema, .nil⟩

/-- The binding of a route. -/
def lookup (r : Registry H) (route : Route) : Option (Binding H) := r.bindings.find? route

/-- The bound routes, by name. -/
def routes (r : Registry H) : List Route := r.bindings.keys

/-- The declared routes without a handler. -/
def unbound (r : Registry H) : List Route :=
  r.schema.routes.filter fun route => (r.lookup route).isNone

/-- The declared routes without a handler, as texts. -/
def unboundMethods (r : Registry H) : List String := r.unbound.map Route.text

/-- Whether some method of a member has a handler. -/
def isMounted (r : Registry H) (module member : String) : Bool :=
  r.routes.any fun route => route.module = module ∧ route.member = member

/-- Bind a handler to a route. -/
def implement (route : Route) (handler : H) : Setup H Unit := fun r =>
  match r.schema.findMethod route with
  | .error e => .error e r
  | .ok method =>
    match r.lookup route with
    | some _ => .error (.methodTaken route) r
    | none => .ok () { r with bindings := r.bindings.insert route ⟨method, handler⟩ }

/-- Bind handlers to methods of a member, one after the other. -/
def implementAll (module member : String) : List (String × H) → Setup H Unit
  | [] => return ()
  | (method, handler) :: more => do
    implement ⟨module, member, method⟩ handler
    implementAll module member more

/-- Bind handlers to methods of a member that has none yet, in the order of their names. -/
def mount (module member : String) (handlers : Ascending String H none) : Setup H Unit := do
  if (← get).isMounted module member then throw (.memberTaken module member)
  else implementAll module member handlers.toList

end Registry

end SchemaRpc
