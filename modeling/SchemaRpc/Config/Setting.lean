/-
# Settings documents

What a document says at some place, as far as a configuration can depend on it, and the
configuration that a document describes.  Members that have no meaning are passed over whatever
they hold; members that are left out keep their usual values.
-/
import SchemaRpc.Config.Basic
import SchemaRpc.Json.Basic
import SchemaRpc.Json.Reader

namespace SchemaRpc

/-- What stands at a place of a settings document. -/
inductive Setting where
  /-- A natural number of 64 bits. -/
  | size (n : Nat)
  | switch (on : Bool)
  /-- Members by name, in the order of the document; a name may be repeated. -/
  | group (members : List (String × Setting))
  /-- Members by position. -/
  | sequence (items : List Setting)
  /-- Nothing at all. -/
  | blank
  /-- Something that no configuration holds. -/
  | other

namespace Setting

/-- A number as a size, if it is a natural number of 64 bits. -/
def ofInt (n : Int) : Setting := if IntKind.u64.Holds n then .size n.toNat else .other

mutual

/-- What a JSON value says. -/
def ofJson : Json → Setting
  | .bool b => .switch b
  | .int n => ofInt n
  | .array items => .sequence (ofItems items)
  | .object members => .group (ofMembers members)
  | .null | .float _ | .string _ => .other

/-- What the items of an array say. -/
def ofItems : List Json → List Setting
  | [] => []
  | item :: more => ofJson item :: ofItems more

/-- What the members of an object say. -/
def ofMembers : {floor : Option String} → Ascending String Json floor → List (String × Setting)
  | _, .nil => []
  | _, .cons name _ value more => (name, ofJson value) :: ofMembers more

end

mutual

/-- What a JSON document says. Members are read in their order, so that repeated names are
seen; an object with a name that is no text says nothing. -/
def ofDocument : Json.Document → Setting
  | .bool b => .switch b
  | .number n =>
    match n.toJson? with
    | some (.int n) => ofInt n
    | _ => .other
  | .array items => .sequence (ofDocuments [] items)
  | .object members => ofDocumentMembers [] members
  | .null | .string _ => .other

/-- What the items of an array say, after those already read in reverse. -/
def ofDocuments (done : List Setting) : List Json.Document → List Setting
  | [] => done.reverse
  | item :: more => ofDocuments (ofDocument item :: done) more

/-- What an object says, after the members already read in reverse. -/
def ofDocumentMembers (done : List (String × Setting)) :
    List (Option String × Json.Document) → Setting
  | [] => .group done.reverse
  | (some name, value) :: more => ofDocumentMembers ((name, ofDocument value) :: done) more
  | (none, _) :: _ => .other

end

/-- The members of the given names, as far as they are there. A name must not be repeated, and
there must not be more positions than names. -/
def components? (names : List String) : Setting → Option (List (Option Setting))
  | .blank => some (names.map fun _ => none)
  | .group members =>
    if names.all fun name => (members.map (·.1)).count name ≤ 1 then
      some (names.map (List.lookup · members))
    else none
  | .sequence items =>
    if items.length ≤ names.length then
      some (items.map some ++ List.replicate (names.length - items.length) none)
    else none
  | _ => none

/-- A member, or its usual value if it is left out. -/
def orElse? {α : Type} (usual : α) (read : Setting → Option α) : Option Setting → Option α
  | some setting => read setting
  | none => some usual

/-- A size. -/
def size? : Setting → Option Nat
  | .size n => some n
  | _ => none

/-- A switch. -/
def switch? : Setting → Option Bool
  | .switch on => some on
  | _ => none

/-- The limits of decoding that a document describes. -/
def limits? (setting : Setting) : Option Codec.Limits := do
  match ← setting.components? ["max_depth", "max_payload_len"] with
  | [depth, payload] =>
    let depth ← orElse? Codec.Limits.default.maxDepth size? depth
    return ⟨depth, ← orElse? Codec.Limits.default.maxPayload size? payload⟩
  | _ => none

/-- The configuration that a document describes. -/
def config? (setting : Setting) : Option Config := do
  match ← setting.components? ["limits", "metrics_enabled"] with
  | [limits, metrics] =>
    let limits ← orElse? Config.default.limits limits? limits
    return ⟨limits, ← orElse? Config.default.metricsEnabled switch? metrics⟩
  | _ => none

end Setting

/-- The configuration of a JSON text. -/
def Config.ofJsonText? (text : String) : Option Config :=
  (Json.Document.parse? text).bind fun document => (Setting.ofDocument document).config?

end SchemaRpc
