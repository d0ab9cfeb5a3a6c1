/-
# Decoded values conform to their types

Whatever bytes are decoded, the value has the shape of its type at every depth: primitive values
of exactly the type, labels and variants that are declared, and records in which every field of
the struct is in a state that the field allows and no other field is stored.
-/
import SchemaRpc.Proofs.Codec.Decoding

namespace SchemaRpc

/-- The states that a field allows. -/
inductive Schema.Field.Allows (f : Field) : FieldState → Prop where
  | present (value : Value) : Allows f (.present value)
  | null (ho : f.optional) : Allows f .null
  | defaulted {d : Value} (hd : f.default = some d) : Allows f (.defaulted d)
  | absent (ho : f.optional) (hd : f.default = none) : Allows f .absent

namespace Codec

open Wire

/-- A value has the shape that its type asks for. -/
inductive Conforms (s : Schema) : TypeRef → Value → Prop where
  | bool (b : Bool) : Conforms s (.prim .bool) (.bool b)
  | int (k : IntKind) (n : k.Ranged) : Conforms s (.prim (.int k)) (.int k n)
  | f32 (x : Binary32) : Conforms s (.prim .f32) (.f32 x)
  | f64 (x : Binary64) : Conforms s (.prim .f64) (.f64 x)
  | string (text : String) : Conforms s (.prim .string) (.string text)
  | bytes (data : Bytes) : Conforms s (.prim .bytes) (.bytes data)
  | enum {id : Nat} {n : IntKind.i32.Ranged} (hc : (s.enumType id).contains n) :
    Conforms s (.enum id) (.enum n)
  | union {id : Nat} {active : Tag} {v : Schema.Variant} {payload : Value}
    (hv : v ∈ (s.unionType id).variants) (htag : v.tag = active)
    (h : Conforms s v.type payload) : Conforms s (.union id) (.union active payload)
  | struct {id : Nat} {r : Record}
    (hdeclared : ∀ t ∈ r.tags, ∃ f ∈ (s.structType id).fields, f.tag = t)
    (hallowed : ∀ f ∈ (s.structType id).fields, f.Allows (r.get f.tag))
    (h : ∀ f ∈ (s.structType id).fields, ∀ x, r.get f.tag = .present x → Conforms s f.type x) :
    Conforms s (.struct id) (.struct r)
  | array {item : TypeRef} {items : List Value} (h : ∀ x ∈ items, Conforms s item x) :
    Conforms s (.array item) (.array items)

/-- A value at a type contains another one at another type, at any depth. -/
inductive Contains (s : Schema) : TypeRef → Value → TypeRef → Value → Prop where
  | self (type : TypeRef) (v : Value) : Contains s type v type v
  | payload {id : Nat} {active : Tag} {v : Schema.Variant} {payload part : Value}
    {type : TypeRef} (hv : v ∈ (s.unionType id).variants) (htag : v.tag = active)
    (h : Contains s v.type payload type part) :
    Contains s (.union id) (.union active payload) type part
  | field {id : Nat} {r : Record} {f : Schema.Field} {x part : Value} {type : TypeRef}
    (hf : f ∈ (s.structType id).fields) (hx : r.get f.tag = .present x)
    (h : Contains s f.type x type part) : Contains s (.struct id) (.struct r) type part
  | item {item type : TypeRef} {items : List Value} {x part : Value} (hx : x ∈ items)
    (h : Contains s item x type part) : Contains s (.array item) (.array items) type part

end Codec

namespace Schema

variable {f : Field} {state : FieldState}

/-- A field that has to be sent is there. -/
lemma Field.Allows.present_of_isMandatory (h : f.Allows state) (hm : f.isMandatory) :
    ∃ value, state = .present value := by
  have hoptional : ¬ f.optional := by
    intro ho
    simp [isMandatory, ho] at hm
  cases h with
  | present value => exact ⟨value, rfl⟩
  | null ho | absent ho => exact absurd ho hoptional
  | defaulted hd => simp [isMandatory, hd] at hm

/-- A field with a default is never absent. -/
lemma Field.Allows.ne_absent_of_default (h : f.Allows state) (hd : f.default.isSome) :
    state ≠ .absent := by
  rintro rfl
  cases h with
  | absent ho hnone => simp [hnone] at hd

/-- A field that is not sent is on arrival in a state that it allows, unless it has to be sent. -/
lemma Field.allows_fill_absent (hm : ¬ f.isMandatory) : f.Allows (f.fill .absent) := by
  unfold fill
  rw [if_neg (by decide)]
  cases hd : f.default with
  | some d => exact .defaulted hd
  | none => exact .absent (by simpa [isMandatory, hd] using hm) hd

end Schema

namespace Codec

open Wire

variable {s : Schema}

section

variable {skips : Kind → Bytes → Prop} {inner : TypeRef → Kind → Bytes → Value → Prop}
  (hinner : ∀ {type kind bytes v}, inner type kind bytes v → Conforms s type v)

include hinner

/-- Received records conform if the values of their members do. -/
lemma IsRecord.conforms {id : Nat} (hascends : (s.structType id).Ascends) {bytes : Bytes}
    {r : Record} (h : IsRecord skips inner (s.structType id) bytes r) :
    Conforms s (.struct id) (.struct r) := by
  refine .struct (fun t ht => ?_) (fun f hf => ?_) fun f hf x hx => ?_
  · rw [Record.mem_tags_iff] at ht
    cases hfind : (s.structType id).fieldByTag? t with
    | none => exact absurd (h.get_of_none hascends hfind) ht
    | some f => exact ⟨f, Schema.StructType.mem_of_fieldByTag? hfind⟩
  · rcases h.get_eq hascends hf with ⟨hm, hstate⟩ | ⟨ho, hstate⟩ | ⟨value, -, hstate⟩
    · rw [hstate]
      exact Schema.Field.allows_fill_absent hm
    · rw [hstate]
      exact .null ho
    · rw [hstate]
      exact .present value
  · obtain ⟨kind, body, -, hvalue⟩ := h.readWithin hascends hf hx
    exact hinner hvalue

lemma IsVariant.conforms {id : Nat} {bytes : Bytes} {active : Tag × Value}
    (h : IsVariant inner (s.unionType id) bytes active) :
    Conforms s (.union id) (.union active.1 active.2) := by
  obtain ⟨hh, hv, hb⟩ := h
  obtain ⟨hmem, htag⟩ := Schema.UnionType.mem_of_variantByTag? hv
  exact .union hmem htag (hinner hb)

lemma Items.conforms {item : TypeRef} {bytes : Bytes} {values : List Value}
    (h : Items inner item bytes values) : Conforms s (.array item) (.array values) := by
  refine .array fun x hx => ?_
  obtain ⟨kind, body, -, hvalue⟩ := h.readWithin (Nat.le_refl _) x hx
  exact hinner hvalue

end

lemma IsScalar.conforms {p : Primitive} {kind : Kind} {bytes : Bytes} {v : Value}
    (h : IsScalar p kind bytes v) : Conforms s (.prim p) v := by
  cases h <;> constructor

lemma IsLabel.conforms {id : Nat} {kind : Kind} {bytes : Bytes} {v : Value}
    (h : IsLabel (s.enumType id) kind bytes v) : Conforms s (.enum id) v := by
  cases h with
  | mk hw hn hc => exact .enum hc

variable (hs : s.Ascends)

include hs

/-- What the bytes of a member write conforms. -/
lemma Body.conforms {depth : Nat} {type : TypeRef} {kind : Kind} {bytes : Bytes} {v : Value}
    (h : Body s depth type kind bytes v) : Conforms s type v := by
  induction h using Body.induction with
  | scalar h => exact h.conforms
  | label h => exact h.conforms
  | struct hblock hr ih => exact hr.conforms ih (hs.structType _)
  | union hblock hactive ih => exact hactive.conforms ih
  | array hfront hcount hitems ih => exact hitems.conforms ih

lemma IsPayload.conforms {depth : Nat} {type : TypeRef} {bytes : Bytes} {v : Value}
    (h : IsPayload s depth type bytes v) : Conforms s type v := by
  cases h with
  | struct h => exact h.conforms (Body.conforms hs) (hs.structType _)
  | union h => exact h.conforms (Body.conforms hs)
  | member _ _ _ hb => exact hb.conforms hs

/-- What a conforming value contains conforms. -/
lemma Conforms.of_contains {type type' : TypeRef} {v part : Value} (h : Conforms s type v)
    (hpart : Contains s type v type' part) : Conforms s type' part := by
  induction hpart with
  | self => exact h
  | @payload id active v _ _ _ hv htag hpart ih =>
    cases h with
    | @union _ _ v' _ hv' htag' hpayload =>
      -- the variant of the tag is the same one on both sides
      have hfind := hs.unionType id |>.variantByTag?_tag hv
      have hfind' := hs.unionType id |>.variantByTag?_tag hv'
      rw [htag] at hfind
      rw [htag', hfind] at hfind'
      exact ih (Option.some.inj hfind' ▸ hpayload)
  | field hf hx hpart ih =>
    cases h with
    | struct hdeclared hallowed hvalues => exact ih (hvalues _ hf _ hx)
  | item hx hpart ih =>
    cases h with
    | array hitems => exact ih (hitems _ hx)

omit hs

/-- **Decoded values conform.**  Whatever bytes decode to a value, the value conforms to the type.
So in every struct that it contains, at any depth, a field that has to be sent is there and a
field with a default is not absent. -/
theorem decode_conforms {p : Package} (hp : Schema.resolve p = .ok s) {limits : Limits}
    {payload : Bytes} {type : TypeRef} {v : Value} (h : decode s limits payload type = .ok v) :
    Conforms s type v ∧
      ∀ id (r : Record), Contains s type v (.struct id) (.struct r) → ∀ f ∈ (s.structType id).fields,
        (f.isMandatory → ∃ x, r.get f.tag = .present x) ∧
          (f.default.isSome → r.get f.tag ≠ .absent) := by
  have hs := Schema.ascends_of_resolve hp
  have hpayload := ((decode_eq_ok_iff hs).mp h).2
  have hconforms := hpayload.conforms hs
  refine ⟨hconforms, fun id r hpart f hf => ?_⟩
  cases hconforms.of_contains hs hpart with
  | struct hdeclared hallowed hvalues =>
    exact ⟨(hallowed f hf).present_of_isMandatory, (hallowed f hf).ne_absent_of_default⟩

/-- An item without its count, and with a member that items do not have. -/
theorem decode_conforms_item :
    decode Schema.parcelsSchema .default [1, 2, 97, 0, 132, 7] (.struct 0) =
        .ok (Schema.parcelItem "a" (.defaulted (.int .u8 ⟨1, by decide⟩))) ∧
      Conforms Schema.parcelsSchema (.struct 0)
        (Schema.parcelItem "a" (.defaulted (.int .u8 ⟨1, by decide⟩))) := by
  have hdecode : decode Schema.parcelsSchema .default [1, 2, 97, 0, 132, 7] (.struct 0) =
      .ok (Schema.parcelItem "a" (.defaulted (.int .u8 ⟨1, by decide⟩))) := by rfl
  exact ⟨hdecode, (decode_conforms Schema.resolve_parcels hdecode).1⟩

end Codec

end SchemaRpc
