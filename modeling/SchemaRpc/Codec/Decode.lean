/-
# Decoding

The value that bytes write at a type of a schema.  Members must come in ascending order of
their tags.  A member whose tag the struct does not have is passed over.  A field that is not
sent takes its default; one without a default stays absent if it is optional and is an error
otherwise.  An integer is accepted in any layout and checked against its type.  Structs,
unions and arrays may nest as deep as the limits allow, and so may the arrays inside a member
that is passed over.
-/
import SchemaRpc.Schema.Basic
import SchemaRpc.Utf8
import SchemaRpc.Wire.Reader

namespace SchemaRpc

namespace Codec

open Wire (Reader Reading Header)

/-- The bounds that decoding keeps to. -/
structure Limits where
  /-- How deep structs, unions and arrays may nest inside the outermost value. -/
  maxDepth : Nat
  /-- How many bytes a payload may have. -/
  maxPayload : Nat
deriving DecidableEq

/-- The usual limits: a depth of 64 and 64 mebibytes. -/
def Limits.default : Limits := ⟨64, 64 * 1024 * 1024⟩

/-- What is wrong with the bytes of a value apart from the structure of the schema. -/
inductive Malformation where
  | frame (fault : Wire.Fault)
  /-- A value that stands by itself has a tag. -/
  | topLevelTag (tag : Tag)
  /-- Bytes follow a value that stands by itself. -/
  | trailingValue
  /-- Bytes follow the active member of a union. -/
  | trailingVariant
  /-- The tags of members do not ascend. -/
  | tagOrder (tag previous : Tag)
  /-- A field that is not optional is null. -/
  | nullField (field : String)
  /-- An item of an array has a tag. -/
  | itemTag (tag : Tag)
  | notBool (value : Int)
  | outOfRange (value : Int) (kind : IntKind)
  | notUtf8 (fault : Utf8.Fault)
deriving DecidableEq

/-- The wording of a malformation. -/
def Malformation.message : Malformation → String
  | .frame fault => fault.message
  | .topLevelTag tag => s!"top-level member has tag {tag.val}"
  | .trailingValue => "trailing bytes after value"
  | .trailingVariant => "trailing bytes after variant"
  | .tagOrder tag previous => s!"tag {tag.val} follows tag {previous.val}"
  | .nullField field => s!"null for required field '{field}'"
  | .itemTag tag => s!"array element has tag {tag.val}"
  | .notBool value => s!"{value} is not a bool"
  | .outOfRange value kind => s!"{value} out of range for {kind.name}"
  | .notUtf8 fault => s!"invalid UTF-8: {fault.message}"

/-- Why bytes are no value of a type. -/
inductive DecodeError where
  /-- A field that has to be sent is not there. -/
  | missingField (type field : String) (tag : Tag) (offset : Nat)
  | unknownVariant (type : String) (tag : Tag) (offset : Nat)
  | unknownEnumValue (type : String) (value : Int) (offset : Nat)
  | malformed (type : String) (offset : Nat) (reason : Malformation)
  | tooDeep (type : String) (limit offset : Nat)
  | tooLarge (length limit : Nat)
deriving DecidableEq

/-- The wording of an error. -/
def DecodeError.message : DecodeError → String
  | .missingField type field tag offset =>
    s!"{type}: missing required field '{field}' (tag {tag.val}) at offset {offset}"
  | .unknownVariant type tag offset => s!"{type}: unknown variant tag {tag.val} at offset {offset}"
  | .unknownEnumValue type value offset => s!"{type}: unknown enum value {value} at offset {offset}"
  | .malformed type offset reason =>
    s!"malformed bytes for {type} at offset {offset}: {reason.message}"
  | .tooDeep type limit offset => s!"{type}: nesting deeper than {limit} at offset {offset}"
  | .tooLarge length limit => s!"payload of {length} bytes exceeds limit of {limit}"

/-- The name of the kind of an error. -/
def DecodeError.kindName : DecodeError → String
  | .missingField .. => "MissingRequiredField"
  | .unknownVariant .. => "UnknownUnionTag"
  | .unknownEnumValue .. => "UnknownEnumValue"
  | .malformed .. => "Malformed"
  | .tooDeep .. => "DepthExceeded"
  | .tooLarge .. => "PayloadTooLarge"

/-- The offset at which decoding failed; a payload that is too large has none. -/
def DecodeError.offset? : DecodeError → Option Nat
  | .missingField _ _ _ offset => some offset
  | .unknownVariant _ _ offset => some offset
  | .unknownEnumValue _ _ offset => some offset
  | .malformed _ offset _ => some offset
  | .tooDeep _ _ offset => some offset
  | .tooLarge _ _ => none

/-- Operations of decoding on a reader. -/
abbrev Decoding := EStateM DecodeError Reader

section

variable (s : Schema)

/-- Fail with a malformation of a type. -/
def malformed {α : Type} (type : TypeRef) (offset : Nat) (reason : Malformation) : Decoding α :=
  throw (.malformed (s.typeName type) offset reason)

/-- Run a reading operation for a value of a type. -/
def framed {α : Type} (type : TypeRef) (read : Reading α) : Decoding α := fun r =>
  match read r with
  | .ok a r => .ok a r
  | .error e r => .error (.malformed (s.typeName type) e.offset (.frame e.fault)) r

/-- Pass over a member of a value of a type; `limit` is the depth limit in messages. -/
def passOver (limit budget : Nat) (type : TypeRef) (kind : Wire.Kind) : Decoding Unit := fun r =>
  match Reader.skip budget kind r with
  | .ok () after => .ok () after
  | .error (.frame e) after =>
    .error (.malformed (s.typeName type) e.offset (.frame e.fault)) after
  | .error .tooDeep after => .error (.tooDeep (s.typeName type) limit r.offset) after

/-- An integer for a kind of integers: only the widest unsigned kind reads eight bytes as a
number without a sign. -/
def readRanged (k : IntKind) (kind : Wire.Kind) : Reading Int :=
  if k = .u64 ∧ kind = .quad then (fun bits => (bits.toNat : Int)) <$> Reader.readQuad kind
  else Reader.readInt kind

/-- A value of a primitive type after its header. -/
def decodePrimitive (p : Primitive) (kind : Wire.Kind) : Decoding Value := do
  let start ← get
  let type : TypeRef := .prim p
  match p with
  | .bool =>
    let n ← framed s type (Reader.readInt kind)
    if n = 0 then return .bool false
    else if n = 1 then return .bool true
    else malformed s type start.offset (.notBool n)
  | .int k =>
    let n ← framed s type (readRanged k kind)
    match k.ofInt? n with
    | some n => return .int k n
    | none => malformed s type start.offset (.outOfRange n k)
  | .f32 => return .f32 (← framed s type (Reader.readFloat32 kind))
  | .f64 => return .f64 (← framed s type (Reader.readFloat64 kind))
  | .string =>
    match Utf8.decode (← framed s type (Reader.readBytes kind)) with
    | .ok text => return .string text
    | .error fault => malformed s type start.offset (.notUtf8 fault)
  | .bytes => return .bytes (← framed s type (Reader.readBytes kind))

/-- A value of an enum after its header. -/
def decodeEnum (id : Nat) (kind : Wire.Kind) : Decoding Value := do
  let start ← get
  let e := s.enumType id
  let n ← framed s (.enum id) (Reader.readInt kind)
  match IntKind.i32.ofInt? n with
  | some value =>
    if e.contains value then return .enum value
    else throw (.unknownEnumValue e.name n start.offset)
  | none => throw (.unknownEnumValue e.name n start.offset)

/-- How a member of a type is decoded after its header. -/
abbrev MemberDecoder := TypeRef → Wire.Kind → Decoding Value

/-- The members of a struct up to the end of the range, added to the fields already there.
`fuel` is at least the number of bytes left, and every member takes one. -/
def decodeMembers (limit budget : Nat) (member : MemberDecoder) (id : Nat) :
    (fuel : Nat) → (last : Option Tag) → (done : Record) → Decoding Record
  | 0, _, done => return done
  | fuel + 1, last, done => do
    let start ← get
    if start.isEmpty then return done
    else
      let type : TypeRef := .struct id
      let header ← framed s type Reader.readHeader
      match last.filter (header.tag ≤ ·) with
      | some previous => malformed s type start.offset (.tagOrder header.tag previous)
      | none =>
        match (s.structType id).fieldByTag? header.tag with
        | none =>
          passOver s limit budget type header.kind
          decodeMembers limit budget member id fuel (some header.tag) done
        | some f =>
          if ← framed s type (Reader.takeNull header.kind) then
            if f.optional then
              decodeMembers limit budget member id fuel (some header.tag) (done.withNull f.tag)
            else malformed s type start.offset (.nullField f.name)
          else
            let value ← member f.type header.kind
            decodeMembers limit budget member id fuel (some header.tag)
              (done.withValue f.tag value)

/-- Fill in the fields that were not sent: by their defaults, or leave them absent. -/
def fillIn (struct : Schema.StructType) : List Schema.Field → (done : Record) → Decoding Record
  | [], done => return done
  | f :: more, done =>
    if (done.get f.tag).isSent then fillIn struct more done
    else
      match f.default with
      | some value => fillIn struct more (done.set f.tag (.defaulted value))
      | none =>
        if f.optional then fillIn struct more done
        else do throw (.missingField struct.name f.name f.tag (← get).offset)

/-- The record that the rest of a range writes at the struct at a position. -/
def decodeRecord (limit budget : Nat) (member : MemberDecoder) (id : Nat) : Decoding Record := do
  let sent ← decodeMembers s limit budget member id (← get).remaining none Record.empty
  fillIn (s.structType id) (s.structType id).fields sent

/-- The active variant and payload that the rest of a range writes at the union at a position. -/
def decodeVariant (member : MemberDecoder) (id : Nat) : Decoding (Tag × Value) := do
  let u := s.unionType id
  let start ← get
  let header ← framed s (.union id) Reader.readHeader
  match u.variantByTag? header.tag with
  | none => throw (.unknownVariant u.name header.tag start.offset)
  | some v =>
    let payload ← member v.type header.kind
    let after ← get
    if after.isEmpty then return (v.tag, payload)
    else malformed s (.union id) after.offset .trailingVariant

/-- The items of an array, `count` of them, after those already read in reverse. -/
def decodeItems (member : MemberDecoder) (item : TypeRef) :
    (count : Nat) → (done : List Value) → Decoding (List Value)
  | 0, done => return done.reverse
  | count + 1, done => do
    let start ← get
    let type : TypeRef := .array item
    let header ← framed s type Reader.readHeader
    if header.tag ≠ .zero then malformed s type start.offset (.itemTag header.tag)
    else
      let value ← member item header.kind
      decodeItems member item count (value :: done)

/-- Decode a nested block by itself; the outer reader stands after the block. -/
def within {α : Type} (block : Reader) (decode : Decoding α) : Decoding α := fun r =>
  match decode block with
  | .ok a _ => .ok a r
  | .error e _ => .error e r

/-- Fail because nothing may nest deeper. -/
def tooDeep {α : Type} (limit : Nat) (type : TypeRef) : Decoding α := do
  throw (.tooDeep (s.typeName type) limit (← get).offset)

/-- A value of a type after its header. `budget` is how many more structs, unions and arrays may
be entered, `limit` the depth limit in messages. -/
def decodeMember (limit : Nat) : (budget : Nat) → MemberDecoder
  | _, .prim p, kind => decodePrimitive s p kind
  | _, .enum id, kind => decodeEnum s id kind
  | 0, type@(.struct _), _ => tooDeep s limit type
  | 0, type@(.union _), _ => tooDeep s limit type
  | 0, type@(.array _), _ => tooDeep s limit type
  | budget + 1, .struct id, kind => do
    let block ← framed s (.struct id) (Reader.readBlock kind)
    return .struct (← within block (decodeRecord s limit budget (decodeMember limit budget) id))
  | budget + 1, .union id, kind => do
    let block ← framed s (.union id) (Reader.readBlock kind)
    let (active, payload) ← within block (decodeVariant s (decodeMember limit budget) id)
    return .union active payload
  | budget + 1, .array item, kind => do
    let count ← framed s (.array item) (Reader.readRepeat kind)
    return .array (← decodeItems s (decodeMember limit budget) item count [])

/-- A value that stands by itself. -/
def decodeTop (limits : Limits) : TypeRef → Decoding Value
  | .struct id => do
    return .struct (← decodeRecord s limits.maxDepth limits.maxDepth
      (decodeMember s limits.maxDepth limits.maxDepth) id)
  | .union id => do
    let (active, payload) ←
      decodeVariant s (decodeMember s limits.maxDepth limits.maxDepth) id
    return .union active payload
  | type => do
    let start ← get
    let header ← framed s type Reader.readHeader
    if header.tag ≠ .zero then malformed s type start.offset (.topLevelTag header.tag)
    else
      let value ← decodeMember s limits.maxDepth limits.maxDepth type header.kind
      let after ← get
      if after.isEmpty then return value
      else malformed s type after.offset .trailingValue

end

/-- Run decoding on a payload of admissible size. -/
def onPayload {α : Type} (limits : Limits) (payload : Bytes) (decode : Decoding α) :
    Except DecodeError α :=
  if limits.maxPayload < payload.length then
    .error (.tooLarge payload.length limits.maxPayload)
  else
    match decode (.ofBytes payload) with
    | .ok a _ => .ok a
    | .error e _ => .error e

/-- The value that a payload writes at a type. -/
def decode (s : Schema) (limits : Limits) (payload : Bytes) (type : TypeRef) :
    Except DecodeError Value :=
  onPayload limits payload (decodeTop s limits type)

/-- The record that a payload writes at the struct at a position. -/
def decodeStruct (s : Schema) (limits : Limits) (payload : Bytes) (id : Nat) :
    Except DecodeError Record :=
  onPayload limits payload
    (decodeRecord s limits.maxDepth limits.maxDepth
      (decodeMember s limits.maxDepth limits.maxDepth) id)

end Codec

end SchemaRpc
