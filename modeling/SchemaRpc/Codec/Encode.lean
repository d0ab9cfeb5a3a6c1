/-
# Encoding

The bytes of a value at a type of a schema.  A struct is the sequence of its members in
ascending order of their tags, a union its one active member; nested in another member either
is a block.  At the top a struct or union stands by itself, any other value is one member with
tag zero.  Encoding checks the value against its type on the way, so it never produces bytes
that decoding would refuse.
-/
import SchemaRpc.Schema.Basic
import SchemaRpc.Utf8
import SchemaRpc.Wire.Member

namespace SchemaRpc

namespace Codec

/-- Why a value cannot be encoded at a type. -/
inductive EncodeError where
  /-- The value has another shape than the type. -/
  | mismatch (type found : String)
  /-- A field that has to be sent has no value to send. -/
  | missingField (type field : String) (tag : Tag)
  /-- A field that is not optional is null. -/
  | nullNotAllowed (type field : String) (tag : Tag)
  /-- The record has a field that the struct does not have. -/
  | unknownField (type : String) (tag : Tag)
  | unknownVariant (type : String) (tag : Tag)
  | unknownEnumValue (type : String) (value : Int)
  /-- A length or count does not fit its four bytes. -/
  | tooLarge (type : String) (length : Nat)
deriving DecidableEq

/-- The wording of an error. -/
def EncodeError.message : EncodeError → String
  | .mismatch type found => s!"{type}: expected {type}, found {found} value"
  | .missingField type field tag => s!"{type}: missing required field '{field}' (tag {tag.val})"
  | .nullNotAllowed type field tag =>
    s!"{type}: field '{field}' (tag {tag.val}) is required and cannot be null"
  | .unknownField type tag => s!"{type}: no field with tag {tag.val}"
  | .unknownVariant type tag => s!"{type}: no variant with tag {tag.val}"
  | .unknownEnumValue type value => s!"{type}: {value} is not a member value"
  | .tooLarge type length => s!"{type}: length {length} exceeds the wire limit"

/-- The name of the kind of an error. -/
def EncodeError.kindName : EncodeError → String
  | .mismatch .. => "TypeMismatch"
  | .missingField .. => "MissingRequiredField"
  | .nullNotAllowed .. => "NullNotAllowed"
  | .unknownField .. => "UnknownField"
  | .unknownVariant .. => "UnknownUnionTag"
  | .unknownEnumValue .. => "UnknownEnumValue"
  | .tooLarge .. => "TooLarge"

/-- Bytes or the reason why there are none. -/
abbrev Encoded := Except EncodeError Bytes

/-! ## Writing -/

/-- What is written behind a number of bytes. The number counts for errors only: a nested struct or
union that is too large is reported with all the bytes that are there when it ends. -/
abbrev Writing := Nat → Encoded

/-- What is the same wherever it stands. -/
def Writing.fixed (written : Encoded) : Writing := fun _ => written

/-- One thing behind another. -/
def Writing.andThen (first second : Writing) : Writing := fun before => do
  let front ← first before
  (second (before + front.length)).map (front ++ ·)

/-- What a stored field contributes to the members of its record. -/
inductive Contribution where
  /-- A value to be sent: its member, or why it has none. -/
  | sent (member : Writing)
  | null
  /-- Nothing. -/
  | unsent

/-- The error of a value that has another shape than its type. -/
def mismatch (s : Schema) (type : TypeRef) (value : Value) : EncodeError :=
  .mismatch (s.typeName type) value.kindName

/-- A written form that exists unless a length does not fit. -/
def orTooLarge (s : Schema) (type : TypeRef) (length : Nat) (written : Option Bytes) : Encoded :=
  match written with
  | some bytes => .ok bytes
  | none => .error (.tooLarge (s.typeName type) length)

/-- A nested struct or union: what it writes by itself, behind a header and a length of four
bytes. -/
def block (s : Schema) (type : TypeRef) (tag : Tag) (content : Writing) : Writing :=
  fun before => do
  let start := before + (Wire.header .block4 tag).length + 4
  let body ← content start
  orTooLarge s type (start + body.length) (Wire.writeBlock? tag body)

/-! ## Values -/

/-- The members of a struct, given what the fields of a record contribute: every field of the
record is one of the struct, and every field of the struct may be as the record has it. -/
def assemble (struct : Schema.StructType) (contributions : List (Tag × Contribution)) :
    List Schema.Field → Writing
  | [] => .fixed (.ok [])
  | f :: more =>
    match contributions.lookup f.tag with
    | some (.sent member) => member.andThen (assemble struct contributions more)
    | some .null =>
      if f.optional then
        (Writing.fixed (.ok (Wire.writeNull f.tag))).andThen (assemble struct contributions more)
      else .fixed (.error (.nullNotAllowed struct.name f.name f.tag))
    | some .unsent | none =>
      if f.isMandatory then .fixed (.error (.missingField struct.name f.name f.tag))
      else assemble struct contributions more

/-- The members of a struct in ascending order of their tags. The first field of the record
that the struct does not have is refused before anything else. -/
def structBody (struct : Schema.StructType) (contributions : List (Tag × Contribution)) :
    Writing :=
  match contributions.find? fun c => (struct.fieldByTag? c.1).isNone with
  | some (tag, _) => .fixed (.error (.unknownField struct.name tag))
  | none => assemble struct contributions struct.fields

mutual

/-- The member of a value at a type. -/
def encodeMember (s : Schema) (tag : Tag) (type : TypeRef) : Value → Writing
  | .bool b, _ =>
    match type with
    | .prim .bool => .ok (Wire.writeInt tag (if b then 1 else 0))
    | _ => .error (mismatch s type (.bool b))
  | .int kind n, _ =>
    if type = .prim (.int kind) then .ok (Wire.writeInt tag n.val)
    else .error (mismatch s type (.int kind n))
  | .f32 x, _ =>
    match type with
    | .prim .f32 => .ok (Wire.writeFloat32 tag x)
    | _ => .error (mismatch s type (.f32 x))
  | .f64 x, _ =>
    match type with
    | .prim .f64 => .ok (Wire.writeFloat64 tag x)
    | _ => .error (mismatch s type (.f64 x))
  | .string text, _ =>
    match type with
    | .prim .string =>
      let bytes := Utf8.encode text
      orTooLarge s type bytes.length (Wire.writeBytes? tag bytes)
    | _ => .error (mismatch s type (.string text))
  | .bytes bytes, _ =>
    match type with
    | .prim .bytes => orTooLarge s type bytes.length (Wire.writeBytes? tag bytes)
    | _ => .error (mismatch s type (.bytes bytes))
  | .enum n, _ =>
    match type with
    | .enum id =>
      let e := s.enumType id
      if e.contains n then .ok (Wire.writeInt tag n.val)
      else .error (.unknownEnumValue e.name n.val)
    | _ => .error (mismatch s type (.enum n))
  | .union active payload, before =>
    match type with
    | .union id =>
      let u := s.unionType id
      match u.variantByTag? active with
      | none => .error (.unknownVariant u.name active)
      | some v => block s type tag (encodeMember s v.tag v.type payload) before
    | _ => .error (mismatch s type (.union active payload))
  | .struct slots, before =>
    match type with
    | .struct id =>
      let struct := s.structType id
      block s type tag (structBody struct (encodeSlots s struct slots)) before
    | _ => .error (mismatch s type (.struct slots))
  | .array items, before =>
    match type with
    | .array item =>
      let front := orTooLarge s type items.length (Wire.writeRepeat? tag items.length)
      (Writing.fixed front).andThen (encodeItems s item items) before
    | _ => .error (mismatch s type (.array items))

/-- What the fields of a record contribute at a struct. -/
def encodeSlots (s : Schema) (struct : Schema.StructType) :
    {floor : Option Tag} → Slots floor → List (Tag × Contribution)
  | _, .nil => []
  | _, .cons tag _ slot more =>
    (tag, encodeSlot s tag ((struct.fieldByTag? tag).map (·.type)) slot)
      :: encodeSlots s struct more

/-- What a field contributes, given its type if the struct has the field. -/
def encodeSlot (s : Schema) (tag : Tag) (type : Option TypeRef) : Slot Value → Contribution
  | .present value =>
    match type with
    | some type => .sent (encodeMember s tag type value)
    | none => .unsent
  | .null => .null
  | .defaulted _ => .unsent

/-- The items of an array, one member with tag zero each. -/
def encodeItems (s : Schema) (item : TypeRef) : List Value → Writing
  | [] => .fixed (.ok [])
  | value :: more => (encodeMember s .zero item value).andThen (encodeItems s item more)

end

/-- The members of a record as the value of the struct at a position. -/
def recordBody (s : Schema) (id : Nat) (record : Record) : Writing :=
  structBody (s.structType id) (encodeSlots s (s.structType id) record)

/-- The active member of a union. -/
def unionBody (s : Schema) (id : Nat) (active : Tag) (payload : Value) : Writing :=
  let u := s.unionType id
  match u.variantByTag? active with
  | none => .fixed (.error (.unknownVariant u.name active))
  | some v => encodeMember s v.tag v.type payload

/-! ## Payloads -/

/-- A record as the value of the struct at a position, standing by itself. -/
def encodeRecord (s : Schema) (id : Nat) (record : Record) : Encoded := recordBody s id record 0

/-- A union value standing by itself: its active member. -/
def encodeUnion (s : Schema) (id : Nat) (active : Tag) (payload : Value) : Encoded :=
  unionBody s id active payload 0

/-- The bytes of a value at a type. -/
def encode (s : Schema) (value : Value) (type : TypeRef) : Encoded :=
  match type, value with
  | .struct id, .struct record => encodeRecord s id record
  | .union id, .union active payload => encodeUnion s id active payload
  | .struct _, value | .union _, value => .error (mismatch s type value)
  | type, value => encodeMember s .zero type value 0

end Codec

end SchemaRpc
