/-
# Decoding with all bounds checked

The decoder again, on places in a buffer and with a check before every step that could go wrong.
A loop over the members of a struct gets as many turns as the buffer has bytes, and it is a trap
if they do not suffice.
-/
import SchemaRpc.Codec.Decode
import SchemaRpc.Proofs.Wire.Checked

namespace SchemaRpc

namespace Codec

open Wire

namespace Checked

open Wire.Checked

section

variable (s : Schema) (b : Bytes)

/-- Fail with a malformation of a type. -/
def malformed {α : Type} (type : TypeRef) (offset : Nat) (reason : Malformation) :
    Checked DecodeError α :=
  fail (.malformed (s.typeName type) offset reason)

/-- Run a reading operation for a value of a type. -/
def framed {α : Type} (type : TypeRef) (read : Checked FrameError α) : Checked DecodeError α :=
  mapError (fun e => .malformed (s.typeName type) e.offset (.frame e.fault)) read

/-- Pass over a member of a value of a type. -/
def passOver (limit budget : Nat) (type : TypeRef) (kind : Kind) : Checked DecodeError Unit := do
  let start ← get
  mapError (fun
    | .frame e => .malformed (s.typeName type) e.offset (.frame e.fault)
    | .tooDeep => .tooDeep (s.typeName type) limit start.pos) (skip b budget kind)

/-- An integer for a kind of integers. -/
def readRanged (k : IntKind) (kind : Kind) : Checked FrameError Int :=
  if k = .u64 ∧ kind = .quad then
    (fun bits => (bits.toNat : Int)) <$> readQuad b kind
  else readInt b kind

/-- A value of a primitive type after its header. -/
def decodePrimitive (p : Primitive) (kind : Kind) : Checked DecodeError Value := do
  let start ← get
  let type : TypeRef := .prim p
  match p with
  | .bool =>
    let n ← framed s type (readInt b kind)
    if n = 0 then return .bool false
    else if n = 1 then return .bool true
    else malformed s type start.pos (.notBool n)
  | .int k =>
    let n ← framed s type (readRanged b k kind)
    match k.ofInt? n with
    | some n => return .int k n
    | none => malformed s type start.pos (.outOfRange n k)
  | .f32 => return .f32 (← framed s type (readFloat32 b kind))
  | .f64 => return .f64 (← framed s type (readFloat64 b kind))
  | .string =>
    match Utf8.decode (← framed s type (readBytes b kind)) with
    | .ok text => return .string text
    | .error fault => malformed s type start.pos (.notUtf8 fault)
  | .bytes => return .bytes (← framed s type (readBytes b kind))

/-- A value of an enum after its header. -/
def decodeEnum (id : Nat) (kind : Kind) : Checked DecodeError Value := do
  let start ← get
  let e := s.enumType id
  let n ← framed s (.enum id) (readInt b kind)
  match IntKind.i32.ofInt? n with
  | some value =>
    if e.contains value then return .enum value
    else fail (.unknownEnumValue e.name n start.pos)
  | none => fail (.unknownEnumValue e.name n start.pos)

/-- How a member of a type is decoded after its header. -/
abbrev MemberDecoder := TypeRef → Kind → Checked DecodeError Value

/-- The members of a struct up to the end of the range, added to the fields already there. -/
def decodeMembers (limit budget : Nat) (member : MemberDecoder) (id : Nat) :
    (turns : Nat) → (last : Option Tag) → (done : Record) → Checked DecodeError Record
  | 0, _, done => do
    let start ← get
    if start.stop ≤ start.pos then return done else trap .endless
  | turns + 1, last, done => do
    let start ← get
    if start.stop ≤ start.pos then return done
    else
      let type : TypeRef := .struct id
      let header ← framed s type (readHeader b)
      match last.filter (header.tag ≤ ·) with
      | some previous => malformed s type start.pos (.tagOrder header.tag previous)
      | none =>
        match (s.structType id).fieldByTag? header.tag with
        | none =>
          passOver s b limit budget type header.kind
          decodeMembers limit budget member id turns (some header.tag) done
        | some f =>
          if ← framed s type (takeNull b header.kind) then
            if f.optional then
              decodeMembers limit budget member id turns (some header.tag) (done.withNull f.tag)
            else malformed s type start.pos (.nullField f.name)
          else
            let value ← member f.type header.kind
            decodeMembers limit budget member id turns (some header.tag)
              (done.withValue f.tag value)

/-- Fill in the fields that were not sent. -/
def fillIn (struct : Schema.StructType) :
    List Schema.Field → (done : Record) → Checked DecodeError Record
  | [], done => return done
  | f :: more, done =>
    if (done.get f.tag).isSent then fillIn struct more done
    else
      match f.default with
      | some value => fillIn struct more (done.set f.tag (.defaulted value))
      | none =>
        if f.optional then fillIn struct more done
        else do fail (.missingField struct.name f.name f.tag (← get).pos)

/-- The record that the rest of a range writes at the struct at a position. -/
def decodeRecord (limit budget : Nat) (member : MemberDecoder) (id : Nat) :
    Checked DecodeError Record := do
  let sent ← decodeMembers s b limit budget member id b.length none Record.empty
  fillIn (s.structType id) (s.structType id).fields sent

/-- The active variant and payload that the rest of a range writes at the union at a position. -/
def decodeVariant (member : MemberDecoder) (id : Nat) : Checked DecodeError (Tag × Value) := do
  let u := s.unionType id
  let start ← get
  let header ← framed s (.union id) (readHeader b)
  match u.variantByTag? header.tag with
  | none => fail (.unknownVariant u.name header.tag start.pos)
  | some v =>
    let payload ← member v.type header.kind
    let after ← get
    if after.stop ≤ after.pos then return (v.tag, payload)
    else malformed s (.union id) after.pos .trailingVariant

/-- The items of an array, `count` of them, after those already read in reverse. -/
def decodeItems (member : MemberDecoder) (item : TypeRef) :
    (count : Nat) → (done : List Value) → Checked DecodeError (List Value)
  | 0, done => return done.reverse
  | count + 1, done => do
    let start ← get
    let type : TypeRef := .array item
    let header ← framed s type (readHeader b)
    if header.tag ≠ .zero then malformed s type start.pos (.itemTag header.tag)
    else
      let value ← member item header.kind
      decodeItems member item count (value :: done)

/-- Decode the range of a nested block by itself; the place in the outer range stays. -/
def within {α : Type} (inner : Span) (decode : Checked DecodeError α) : Checked DecodeError α :=
  fun outer =>
    match decode inner with
    | .ok a _ => .ok a outer
    | .error e _ => .error e outer

/-- Fail because nothing may nest deeper. -/
def tooDeep {α : Type} (limit : Nat) (type : TypeRef) : Checked DecodeError α := do
  fail (.tooDeep (s.typeName type) limit (← get).pos)

/-- A value of a type after its header. -/
def decodeMember (limit : Nat) : (budget : Nat) → MemberDecoder
  | _, .prim p, kind => decodePrimitive s b p kind
  | _, .enum id, kind => decodeEnum s b id kind
  | 0, type@(.struct _), _ => tooDeep s limit type
  | 0, type@(.union _), _ => tooDeep s limit type
  | 0, type@(.array _), _ => tooDeep s limit type
  | budget + 1, .struct id, kind => do
    let inner ← framed s (.struct id) (readBlock b kind)
    return .struct (← within inner (decodeRecord s b limit budget (decodeMember limit budget) id))
  | budget + 1, .union id, kind => do
    let inner ← framed s (.union id) (readBlock b kind)
    let (active, payload) ← within inner (decodeVariant s b (decodeMember limit budget) id)
    return .union active payload
  | budget + 1, .array item, kind => do
    let count ← framed s (.array item) (readRepeat b kind)
    -- the room that is reserved for the items depends on how many bytes are left
    let _ ← remaining
    return .array (← decodeItems s b (decodeMember limit budget) item count [])

/-- A value that stands by itself. -/
def decodeTop (limits : Limits) : TypeRef → Checked DecodeError Value
  | .struct id => do
    return .struct (← decodeRecord s b limits.maxDepth limits.maxDepth
      (decodeMember s b limits.maxDepth limits.maxDepth) id)
  | .union id => do
    let (active, payload) ←
      decodeVariant s b (decodeMember s b limits.maxDepth limits.maxDepth) id
    return .union active payload
  | type => do
    let start ← get
    let header ← framed s type (readHeader b)
    if header.tag ≠ .zero then malformed s type start.pos (.topLevelTag header.tag)
    else
      let value ← decodeMember s b limits.maxDepth limits.maxDepth type header.kind
      let after ← get
      if after.stop ≤ after.pos then return value
      else malformed s type after.pos .trailingValue

/-- Run decoding on a payload of admissible size, from its start to its end. -/
def onPayload {α : Type} (limits : Limits) (decode : Checked DecodeError α) :
    Except (Trap ⊕ DecodeError) α :=
  if limits.maxPayload < b.length then .error (.inr (.tooLarge b.length limits.maxPayload))
  else
    match decode ⟨0, b.length⟩ with
    | .ok a _ => .ok a
    | .error e _ => .error e

end

/-- The value that a payload writes at a type. -/
def decode (s : Schema) (limits : Limits) (payload : Bytes) (type : TypeRef) :
    Except (Trap ⊕ DecodeError) Value :=
  onPayload payload limits (decodeTop s payload limits type)

/-- The record that a payload writes at the struct at a position. -/
def decodeStruct (s : Schema) (limits : Limits) (payload : Bytes) (id : Nat) :
    Except (Trap ⊕ DecodeError) Record :=
  onPayload payload limits
    (decodeRecord s payload limits.maxDepth limits.maxDepth
      (decodeMember s payload limits.maxDepth limits.maxDepth) id)

end Checked

end Codec

end SchemaRpc
