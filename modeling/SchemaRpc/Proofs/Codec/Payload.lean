/-
# Payloads of a type

The bytes that write a value at a type, as relations.  `Body s depth type kind` relates the bytes
of a member after its header to the value that they write, structs, unions and arrays nesting at
most `depth` deep.  A value of greater depth is made of values of smaller depth, so the relation
is given by recursion on the depth from relations for one level: the members of a struct, the
active member of a union, the items of an array.  `IsPayload` is the same for a value that
stands by itself.

Nothing here asks for the smallest layout: headers, integers and lengths may be wider than
needed, and members of unknown tags may stand between the others.
-/
import SchemaRpc.Codec.Decode
import SchemaRpc.Proofs.Value.Arrival
import SchemaRpc.Proofs.Wire.Skipping

namespace SchemaRpc

namespace Codec

open Wire

/-! ## Scalars -/

/-- The number that bytes of a kind stand for at an integer type. -/
def readingOf (k : IntKind) (kind : Kind) (bytes : Bytes) : Int :=
  if k = .u64 ∧ kind = .quad then Bytes.toNat bytes else Bytes.toInt bytes

/-- The bytes of a primitive value after a header. -/
inductive IsScalar : Primitive → Kind → Bytes → Value → Prop where
  | bool {kind : Kind} {bytes : Bytes} {b : Bool} (hw : kind.intWidth? = some bytes.length)
    (hn : Bytes.toInt bytes = if b then 1 else 0) : IsScalar .bool kind bytes (.bool b)
  | int {k : IntKind} {kind : Kind} {bytes : Bytes} {n : k.Ranged}
    (hw : kind.intWidth? = some bytes.length) (hn : n.val = readingOf k kind bytes) :
    IsScalar (.int k) kind bytes (.int k n)
  | f32 {bytes : Bytes} (hl : bytes.length = 4) :
    IsScalar .f32 .int4 bytes (.f32 ⟨UInt32.ofNat (Bytes.toNat bytes)⟩)
  | f64 {bytes : Bytes} (hl : bytes.length = 8) :
    IsScalar .f64 .quad bytes (.f64 ⟨UInt64.ofNat (Bytes.toNat bytes)⟩)
  | string {kind : Kind} {bytes : Bytes} {text : String}
    (hb : IsBlock kind bytes (Utf8.encode text ++ [0])) :
    IsScalar .string kind bytes (.string text)
  | bytes {kind : Kind} {bytes data : Bytes} (hb : IsBlock kind bytes (data ++ [0])) :
    IsScalar .bytes kind bytes (.bytes data)

/-- The bytes of a value of an enum after a header. -/
inductive IsLabel (e : Schema.EnumType) : Kind → Bytes → Value → Prop where
  | mk {kind : Kind} {bytes : Bytes} {n : IntKind.i32.Ranged}
    (hw : kind.intWidth? = some bytes.length) (hn : n.val = Bytes.toInt bytes)
    (hc : e.contains n) : IsLabel e kind bytes (.enum n)

/-! ## One level of nesting -/

section

variable (skips : Kind → Bytes → Prop) (inner : TypeRef → Kind → Bytes → Value → Prop)

/-- Bytes after a header that do not read as a null. -/
def NotNull (kind : Kind) (bytes : Bytes) : Prop := ¬(kind = .block1 ∧ bytes.head? = some 0)

/-- The members of a struct with tags above `last`, and the states that they send. -/
inductive Members (struct : Schema.StructType) :
    (last : Option Tag) → Bytes → List (Tag × FieldState) → Prop where
  | nil {last : Option Tag} : Members struct last [] []
  /-- A member that the struct does not have. -/
  | unknown {last : Option Tag} {kind : Kind} {tag : Tag} {head body more : Bytes}
    {states : List (Tag × FieldState)} (hh : IsHeader head ⟨kind, tag⟩)
    (hlast : ∀ t ∈ last, t < tag) (hf : struct.fieldByTag? tag = none) (hb : skips kind body)
    (h : Members struct (some tag) more states) :
    Members struct last (head ++ (body ++ more)) states
  | null {last : Option Tag} {tag : Tag} {head more : Bytes}
    {states : List (Tag × FieldState)} {f : Schema.Field} (hh : IsHeader head ⟨.block1, tag⟩)
    (hlast : ∀ t ∈ last, t < tag) (hf : struct.fieldByTag? tag = some f) (ho : f.optional)
    (h : Members struct (some tag) more states) :
    Members struct last (head ++ ([0] ++ more)) ((tag, .null) :: states)
  | present {last : Option Tag} {kind : Kind} {tag : Tag} {head body more : Bytes}
    {states : List (Tag × FieldState)} {f : Schema.Field} {value : Value}
    (hh : IsHeader head ⟨kind, tag⟩) (hlast : ∀ t ∈ last, t < tag)
    (hf : struct.fieldByTag? tag = some f) (hnull : NotNull kind (body ++ more))
    (hb : inner f.type kind body value) (h : Members struct (some tag) more states) :
    Members struct last (head ++ (body ++ more)) ((tag, .present value) :: states)

/-- The whole range of a struct and the record that it writes. -/
inductive IsRecord (struct : Schema.StructType) : Bytes → Record → Prop where
  | mk {bytes : Bytes} {states : List (Tag × FieldState)}
    (hm : Members skips inner struct none bytes states)
    (hs : struct.Suffices (.ofList states)) :
    IsRecord struct bytes (struct.filled (.ofList states))

/-- The whole range of a union, its active variant and its payload. -/
inductive IsVariant (union : Schema.UnionType) : Bytes → Tag × Value → Prop where
  | mk {kind : Kind} {tag : Tag} {head body : Bytes} {v : Schema.Variant} {payload : Value}
    (hh : IsHeader head ⟨kind, tag⟩) (hv : union.variantByTag? tag = some v)
    (hb : inner v.type kind body payload) : IsVariant union (head ++ body) (tag, payload)

/-- The items of an array. -/
inductive Items (item : TypeRef) : Bytes → List Value → Prop where
  | nil : Items item [] []
  | cons {kind : Kind} {head body more : Bytes} {value : Value} {values : List Value}
    (hh : IsHeader head ⟨kind, .zero⟩) (hb : inner item kind body value)
    (h : Items item more values) : Items item (head ++ (body ++ more)) (value :: values)

end

/-! ## All levels -/

/-- The bytes of a value of a type after a header. -/
def Body (s : Schema) : (depth : Nat) → TypeRef → Kind → Bytes → Value → Prop
  | _, .prim p => IsScalar p
  | _, .enum id => IsLabel (s.enumType id)
  | 0, .struct _ | 0, .union _ | 0, .array _ => fun _ _ _ => False
  | depth + 1, .struct id => fun kind bytes value => ∃ content r, IsBlock kind bytes content ∧
      IsRecord (Skips depth) (Body s depth) (s.structType id) content r ∧ value = .struct r
  | depth + 1, .union id => fun kind bytes value => ∃ content active, IsBlock kind bytes content ∧
      IsVariant (Body s depth) (s.unionType id) content active ∧
      value = .union active.1 active.2
  | depth + 1, .array item => fun kind bytes value => ∃ front content values,
      kind = .repeated ∧ bytes = front ++ content ∧ front.length = 4 ∧
      Bytes.toNat front = values.length ∧ Items (Body s depth) item content values ∧
      value = .array values

lemma body_prim (s : Schema) (depth : Nat) (p : Primitive) :
    Body s depth (.prim p) = IsScalar p := by
  cases depth <;> rfl

lemma body_enum (s : Schema) (depth id : Nat) :
    Body s depth (.enum id) = IsLabel (s.enumType id) := by
  cases depth <;> rfl

/-- The bytes of a member by what they write, with the members inside of it at one depth less. -/
theorem Body.induction {s : Schema}
    {motive : (depth : Nat) → (type : TypeRef) → (kind : Kind) → (bytes : Bytes) → (v : Value) →
      Body s depth type kind bytes v → Prop}
    (scalar : ∀ {depth p kind bytes v} (h : IsScalar p kind bytes v),
      motive depth (.prim p) kind bytes v (body_prim s depth p ▸ h))
    (label : ∀ {depth id kind bytes v} (h : IsLabel (s.enumType id) kind bytes v),
      motive depth (.enum id) kind bytes v (body_enum s depth id ▸ h))
    (struct : ∀ {depth id kind bytes content r} (hblock : IsBlock kind bytes content)
      (hr : IsRecord (Skips depth) (Body s depth) (s.structType id) content r)
      (_ : ∀ {type kind bytes v} (h : Body s depth type kind bytes v),
        motive depth type kind bytes v h),
      motive (depth + 1) (.struct id) kind bytes (.struct r) ⟨content, r, hblock, hr, rfl⟩)
    (union : ∀ {depth id kind bytes content active} (hblock : IsBlock kind bytes content)
      (hactive : IsVariant (Body s depth) (s.unionType id) content active)
      (_ : ∀ {type kind bytes v} (h : Body s depth type kind bytes v),
        motive depth type kind bytes v h),
      motive (depth + 1) (.union id) kind bytes (.union active.1 active.2)
        ⟨content, active, hblock, hactive, rfl⟩)
    (array : ∀ {depth item front content values} (hfront : front.length = 4)
      (hcount : Bytes.toNat front = values.length)
      (hitems : Items (Body s depth) item content values)
      (_ : ∀ {type kind bytes v} (h : Body s depth type kind bytes v),
        motive depth type kind bytes v h),
      motive (depth + 1) (.array item) .repeated (front ++ content) (.array values)
        ⟨front, content, values, rfl, rfl, hfront, hcount, hitems, rfl⟩)
    {depth : Nat} {type : TypeRef} {kind : Kind} {bytes : Bytes} {v : Value}
    (h : Body s depth type kind bytes v) : motive depth type kind bytes v h := by
  induction depth generalizing type kind bytes v with
  | zero =>
    cases type with
    | prim p => exact scalar h
    | enum id => exact label h
    | struct id | union id | array item => exact h.elim
  | succ depth ih =>
    cases type with
    | prim p => exact scalar h
    | enum id => exact label h
    | struct id =>
      obtain ⟨content, r, hblock, hr, rfl⟩ := h
      exact struct hblock hr ih
    | union id =>
      obtain ⟨content, active, hblock, hactive, rfl⟩ := h
      exact union hblock hactive ih
    | array item =>
      obtain ⟨front, content, values, rfl, rfl, hfront, hcount, hitems, rfl⟩ := h
      exact array hfront hcount hitems ih

/-- The payload of a value of a type. -/
inductive IsPayload (s : Schema) (depth : Nat) : TypeRef → Bytes → Value → Prop where
  | struct {id : Nat} {bytes : Bytes} {r : Record}
    (h : IsRecord (Skips depth) (Body s depth) (s.structType id) bytes r) :
    IsPayload s depth (.struct id) bytes (.struct r)
  | union {id : Nat} {bytes : Bytes} {active : Tag} {payload : Value}
    (h : IsVariant (Body s depth) (s.unionType id) bytes (active, payload)) :
    IsPayload s depth (.union id) bytes (.union active payload)
  | member {type : TypeRef} {kind : Kind} {head body : Bytes} {value : Value}
    (hstruct : ∀ id, type ≠ .struct id) (hunion : ∀ id, type ≠ .union id)
    (hh : IsHeader head ⟨kind, .zero⟩) (hb : Body s depth type kind body value) :
    IsPayload s depth type (head ++ body) value

end Codec

end SchemaRpc
