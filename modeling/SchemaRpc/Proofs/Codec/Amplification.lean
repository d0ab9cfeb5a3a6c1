/-
# Few bytes make no large values

Every value that is sent takes a header, and a struct, a union or an array takes a length or a
count on top of that.  So a weight that is small enough on every value by itself adds up to no
more than the bytes that were read.  The invariant of the induction on the depth is

  `rate * total ≤ body.length + 1`,

where the byte on top is one of the header that goes before.  With a rate of two and a weight of
one this bounds the number of values, with a rate of one and the lengths of texts their bytes.
-/
import SchemaRpc.Proofs.Codec.Growth
import SchemaRpc.Proofs.Codec.Versions
import SchemaRpc.Proofs.Value.Size

namespace SchemaRpc

/-- The values that a record sends add up to no more than states that have them all. -/
lemma Record.slotsTotal_le_sum (weight : Value → Nat) {r : Record}
    {states : List (Tag × FieldState)}
    (h : ∀ t x, r.get t = .present x → (t, .present x) ∈ states) :
    Value.slotsTotal weight r ≤ (states.map fun sent => sent.2.total weight).sum := by
  have hnodup : (r.toStates.map id).Nodup := by
    rw [List.map_id]
    exact r.nodup_toStates
  rw [slotsTotal_eq_sum_toStates]
  refine sum_map_le_sum_map hnodup fun ⟨t, state⟩ hstate hne => ⟨?_, Nat.le_refl _⟩
  cases state with
  | present x => exact h t x (mem_toStates hstate)
  | null | defaulted d | absent =>
    -- what is not sent adds nothing
    exact absurd rfl hne

namespace Codec

open Wire

/-- The weights of single values are so small that their bytes make up for them at a rate: those of
scalars together with a byte of the header, and those of structs, unions and arrays, which are at
most `outermost`, with the length or count as well. -/
structure Moderate (rate outermost : Nat) (weight : Value → Nat) : Prop where
  scalar {p : Primitive} {kind : Kind} {bytes : Bytes} {v : Value} (h : IsScalar p kind bytes v) :
    rate * weight v ≤ bytes.length + 1
  label {e : Schema.EnumType} {kind : Kind} {bytes : Bytes} {v : Value}
    (h : IsLabel e kind bytes v) : rate * weight v ≤ bytes.length + 1
  struct (r : Record) : rate * weight (.struct r) ≤ outermost
  union (active : Tag) (payload : Value) : rate * weight (.union active payload) ≤ outermost
  array (items : List Value) : rate * weight (.array items) ≤ outermost
  outermost_le : outermost ≤ 2

/-! ## One level of nesting -/

section

variable {skips : Kind → Bytes → Prop} {inner : TypeRef → Kind → Bytes → Value → Prop}
  {rate : Nat} {weight : Value → Nat}
  (hinner : ∀ {type kind body v}, inner type kind body v →
    rate * v.total weight ≤ body.length + 1)

include hinner

lemma Members.sum_total_le {struct : Schema.StructType} {last : Option Tag} {bytes : Bytes}
    {states : List (Tag × FieldState)} (h : Members skips inner struct last bytes states) :
    rate * (states.map fun sent => sent.2.total weight).sum ≤ bytes.length := by
  induction h with
  | nil => exact Nat.le_refl 0
  | unknown hh hlast hf hb h ih =>
    simp only [List.length_append]
    omega
  | null hh hlast hf ho h ih =>
    simp only [List.map_cons, List.sum_cons, FieldState.total_null, Nat.zero_add,
      List.length_append]
    omega
  | present hh hlast hf hnull hb h ih =>
    have hpos := hh.length_pos
    have hvalue := hinner hb
    simp only [List.map_cons, List.sum_cons, FieldState.total_present, Nat.mul_add, List.length_append]
    omega

lemma IsRecord.total_le {struct : Schema.StructType} (hascends : struct.Ascends) {bytes : Bytes}
    {r : Record} (h : IsRecord skips inner struct bytes r) :
    rate * Value.slotsTotal weight r ≤ bytes.length := by
  cases h with
  | @mk states hm hs =>
    refine (Nat.mul_le_mul_left rate (Record.slotsTotal_le_sum weight fun t x hx => ?_)).trans
      (hm.sum_total_le hinner)
    obtain ⟨f, hf, rfl, hstate⟩ := hascends.get_recordOf_fill_eq_present_iff.mp hx
    have hmem : (Record.ofList states).get f.tag = .absent ∨
        (f.tag, (Record.ofList states).get f.tag) ∈ states :=
      Record.get_setAll_eq_or_mem f.tag states .empty
    rw [hstate] at hmem
    exact hmem.resolve_left FieldState.noConfusion

lemma IsVariant.total_le {union : Schema.UnionType} {bytes : Bytes} {active : Tag × Value}
    (h : IsVariant inner union bytes active) : rate * active.2.total weight ≤ bytes.length := by
  obtain ⟨hh, hv, hb⟩ := h
  have hpos := hh.length_pos
  have hvalue := hinner hb
  rw [List.length_append]
  dsimp only
  omega

lemma Items.sum_total_le {item : TypeRef} {bytes : Bytes} {values : List Value}
    (h : Items inner item bytes values) :
    rate * (values.map (·.total weight)).sum ≤ bytes.length := by
  induction h with
  | nil => exact Nat.le_refl 0
  | cons hh hb h ih =>
    have hpos := hh.length_pos
    have hvalue := hinner hb
    simp only [List.map_cons, List.sum_cons, Nat.mul_add, List.length_append]
    omega

end

/-! ## All levels -/

section

variable {s : Schema} (hs : s.Ascends) {rate outermost : Nat} {weight : Value → Nat}
  (hweight : Moderate rate outermost weight)

include hs hweight

/-- **Weight of a member.**  What is read behind a header weighs no more than its bytes and one
byte of the header. -/
theorem Body.total_le {depth : Nat} {type : TypeRef} {kind : Kind} {bytes : Bytes} {v : Value}
    (h : Body s depth type kind bytes v) : rate * v.total weight ≤ bytes.length + 1 := by
  have hsmall := hweight.outermost_le
  induction h using Body.induction with
  | scalar h =>
    have hscalar := hweight.scalar h
    cases h <;> exact hscalar
  | label h =>
    have hlabel := hweight.label h
    cases h
    exact hlabel
  | @struct depth id kind bytes content r hblock hr ih =>
    have hself := hweight.struct r
    have hinside := hr.total_le ih (hs.structType _)
    have hlt := hblock.length_lt
    rw [Value.total_struct, Nat.mul_add]
    omega
  | @union depth id kind bytes content active hblock hactive ih =>
    have hself := hweight.union active.1 active.2
    have hinside := hactive.total_le ih
    have hlt := hblock.length_lt
    rw [Value.total_union, Nat.mul_add]
    omega
  | @array depth item front content values hfront hcount hitems ih =>
    have hself := hweight.array values
    have hinside := hitems.sum_total_le ih
    rw [Value.total_array, Nat.mul_add, List.length_append]
    omega

/-- A payload weighs no more than its bytes and what is allowed for the outermost value. -/
lemma IsPayload.total_le {depth : Nat} {type : TypeRef} {bytes : Bytes} {v : Value}
    (h : IsPayload s depth type bytes v) : rate * v.total weight ≤ bytes.length + outermost := by
  cases h with
  | @struct id bytes r h =>
    have hself := hweight.struct r
    have hinside := h.total_le (fun h => h.total_le hs hweight) (hs.structType _)
    rw [Value.total_struct, Nat.mul_add]
    omega
  | @union id bytes active payload h =>
    have hself := hweight.union active payload
    have hinside := h.total_le fun h => h.total_le hs hweight
    rw [Value.total_union, Nat.mul_add]
    dsimp only at hinside
    omega
  | member hstruct hunion hh hb =>
    have hpos := hh.length_pos
    have hvalue := hb.total_le hs hweight
    rw [List.length_append]
    omega

end

/-! ## Values and texts -/

/-- An integer takes a byte at least. -/
lemma length_pos_of_intWidth? {kind : Kind} {bytes : Bytes}
    (h : kind.intWidth? = some bytes.length) : 0 < bytes.length := by
  have hpos : ∀ width ∈ kind.intWidth?, 0 < width := by cases kind <;> decide
  exact hpos _ h

lemma IsScalar.length_pos {p : Primitive} {kind : Kind} {bytes : Bytes} {v : Value}
    (h : IsScalar p kind bytes v) : 0 < bytes.length := by
  cases h with
  | bool hw | int hw => exact length_pos_of_intWidth? hw
  | f32 hl | f64 hl => omega
  | string hb | bytes hb => exact Nat.zero_lt_of_lt hb.length_lt

lemma IsLabel.length_pos {e : Schema.EnumType} {kind : Kind} {bytes : Bytes} {v : Value}
    (h : IsLabel e kind bytes v) : 0 < bytes.length := by
  cases h with
  | mk hw => exact length_pos_of_intWidth? hw

lemma moderate_one : Moderate 2 2 fun _ => 1 where
  scalar h := by
    have hpos := h.length_pos
    omega
  label h := by
    have hpos := h.length_pos
    omega
  struct _ := Nat.le_refl 2
  union _ _ := Nat.le_refl 2
  array _ := Nat.le_refl 2
  outermost_le := Nat.le_refl 2

lemma moderate_stringLength : Moderate 1 0 Value.stringLength where
  scalar h := by
    rw [Nat.one_mul]
    cases h with
    | string hb | bytes hb =>
      have hlt := hb.length_lt
      rw [List.length_append] at hlt
      simp only [Value.stringLength]
      omega
    | bool | int | f32 | f64 => exact Nat.zero_le _
  label h := by
    cases h
    exact Nat.zero_le _
  struct _ := Nat.le_refl 0
  union _ _ := Nat.le_refl 0
  array _ := Nat.le_refl 0
  outermost_le := Nat.zero_le 2

/-- **No amplification.**  Of the values that are sent, a decoded value has no more than one and one
for every two bytes of the payload, and their texts and byte strings have no more bytes than the
payload. -/
theorem no_amplification {p : Package} {s : Schema} (hp : Schema.resolve p = .ok s)
    {limits : Limits} {payload : Bytes} {type : TypeRef} {v : Value}
    (h : decode s limits payload type = .ok v) :
    v.nodes ≤ 1 + payload.length / 2 ∧ v.stringBytes ≤ payload.length := by
  have hs := Schema.ascends_of_resolve hp
  obtain ⟨-, hpayload⟩ := (decode_eq_ok_iff hs).mp h
  have hnodes := hpayload.total_le hs moderate_one
  have hstrings := hpayload.total_le hs moderate_stringLength
  rw [Nat.one_mul] at hstrings
  exact ⟨by rw [Value.nodes]; omega, hstrings⟩

/-- A parcel has nine values that are sent, and two texts of one byte. -/
theorem no_amplification_parcel :
    decode Schema.parcelsSchema .default parcelBytes (.struct 1) = .ok Schema.parcel ∧
    Schema.parcel.nodes = 9 ∧ Schema.parcel.stringBytes = 2 ∧
    Schema.parcel.nodes ≤ 1 + parcelBytes.length / 2 ∧
    Schema.parcel.stringBytes ≤ parcelBytes.length := by
  have hdecode : decode Schema.parcelsSchema .default parcelBytes (.struct 1) =
      .ok Schema.parcel := by rfl
  exact ⟨hdecode, by rfl, by rfl, no_amplification Schema.resolve_parcels hdecode⟩

end Codec

end SchemaRpc
