/-
# The depth limit is met exactly

What is decoded nests no deeper than the limit.  What nests deeper and was encoded is refused for
this and for nothing else: a reader with a limit as wide as the value gets its normal form, which
nests as deep as the value, and the reader with the narrow limit does the same until it gives up.
-/
import SchemaRpc.Proofs.Codec.Forwarding
import SchemaRpc.Proofs.Codec.Limits

namespace SchemaRpc

/-- The values that a normal form sends are the normal forms of the values that are sent. -/
lemma Record.get_normalise_eq_present_iff {s : Schema} {id : Nat}
    (hascends : (s.structType id).Ascends) {r : Record} {t : Tag} {y : Value} :
    (r.normalise s id).get t = .present y ↔ ∃ f ∈ (s.structType id).fields, f.tag = t ∧
      ∃ x, r.get f.tag = .present x ∧ x.normalise s f.type = y := by
  rw [normalise, hascends.get_recordOf_fill_eq_present_iff]
  simp only [FieldState.mapPresent_eq_present_iff]

namespace Codec

section

variable {s : Schema} (hs : s.Ascends) {type : TypeRef} {v : Value}
include hs

/-- Filling in the fields that are not sent keeps the depth of what is sent. -/
lemma Encodable.nesting_normalise_le_iff (h : Encodable s type v) (n : Nat) :
    (v.normalise s type).nesting ≤ n ↔ v.nesting ≤ n := by
  induction h generalizing n with
  | bool | int | f32 | f64 | string | bytes | enum => exact Iff.rfl
  | @union id active v payload hv h ih =>
    rw [Value.normalise, Value.arrive_union s _ hv, Value.nesting_union_le_iff,
      Value.nesting_union_le_iff]
    exact exists_congr fun m => and_congr_right fun _ => ih m
  | @struct id r hr h ih =>
    have hascends := hs.structType id
    rw [Value.normalise_struct hascends, Value.nesting_struct_le_iff, Value.nesting_struct_le_iff]
    refine exists_congr fun m => and_congr_right fun _ => ?_
    constructor
    · intro hle t x hx
      -- what the record sends belongs to a field, or it could not be encoded
      have hstored : t ∈ r.tags := (Record.mem_tags_iff r t).mpr (hx ▸ FieldState.noConfusion)
      obtain ⟨f, hfind⟩ := Option.isSome_iff_exists.mp (hr.declared t hstored)
      obtain ⟨hf, rfl⟩ := Schema.StructType.mem_of_fieldByTag? hfind
      exact (ih f hf x hx m).mp (hle f.tag _
        ((Record.get_normalise_eq_present_iff hascends).mpr ⟨f, hf, rfl, x, hx, rfl⟩))
    · intro hle t y hy
      obtain ⟨f, hf, rfl, x, hx, rfl⟩ := (Record.get_normalise_eq_present_iff hascends).mp hy
      exact (ih f hf x hx m).mpr (hle _ x hx)
  | @array item items h ih =>
    rw [Value.normalise, Value.arrive_array, Value.nesting_array_le_iff,
      Value.nesting_array_le_iff]
    refine exists_congr fun m => and_congr_right fun _ => ?_
    rw [List.forall_mem_map]
    exact forall₂_congr fun x hx => ih x hx m

lemma Encodable.nestingAt_normalise (h : Encodable s type v) :
    (v.normalise s type).nestingAt type = v.nestingAt type := by
  have heq : (v.normalise s type).nesting = v.nesting :=
    eq_of_forall_ge_iff (h.nesting_normalise_le_iff hs)
  cases type <;> simp only [Value.nestingAt, heq]

lemma nestingAt_le_of_decode {limits : Limits} {payload : Bytes}
    (h : decode s limits payload type = .ok v) : v.nestingAt type ≤ limits.maxDepth :=
  ((decode_eq_ok_iff hs).mp h).2.nestingAt_le hs

lemma WritesPayload.decode_tooDeep {limits : Limits} {payload : Bytes}
    (h : WritesPayload s type v payload) (hlen : payload.length ≤ limits.maxPayload)
    (hdeep : limits.maxDepth < v.nestingAt type) :
    ∃ e, e.IsTooDeep limits.maxDepth ∧ decode s limits payload type = .error e := by
  -- a reader whose limits the value just meets gets its normal form
  have hwide : decode s ⟨v.nestingAt type, payload.length⟩ payload type =
      .ok (v.normalise s type) :=
    (decode_eq_ok_iff hs).mpr ⟨le_rfl, h.isPayload_normalise hs le_rfl⟩
  have heither : decode s limits payload type =
      decode s ⟨v.nestingAt type, payload.length⟩ payload type ∨
        ∃ e, e.IsTooDeep limits.maxDepth ∧ decode s limits payload type = .error e :=
    (narrows_decodeTop s hdeep.le type).onPayload hlen le_rfl
  obtain heq | herror := heither
  · -- a value that is deeper than the limit cannot come out
    have hle := nestingAt_le_of_decode hs (heq.trans hwide)
    rw [h.encodable.nestingAt_normalise hs] at hle
    exact absurd hle (Nat.not_le.mpr hdeep)
  · exact herror

end

/-- **Depth limit.**  What is decoded nests no deeper than the limit allows, and decoding a value
that was encoded and nests deeper fails with just that. -/
theorem depth_limit_exact {p : Package} {s : Schema} (hp : Schema.resolve p = .ok s)
    (limits : Limits) (type : TypeRef) :
    (∀ payload v, decode s limits payload type = .ok v → v.nestingAt type ≤ limits.maxDepth) ∧
    ∀ v payload, encode s v type = .ok payload → payload.length ≤ limits.maxPayload →
      limits.maxDepth < v.nestingAt type → ∃ name offset,
        decode s limits payload type = .error (.tooDeep name limits.maxDepth offset) := by
  have hs := Schema.ascends_of_resolve hp
  refine ⟨fun payload v => nestingAt_le_of_decode hs, fun v payload hencode hlen hdeep => ?_⟩
  obtain ⟨_, ⟨name, offset, rfl⟩, hdecode⟩ :=
    ((encode_eq_ok_iff hs).mp hencode).decode_tooDeep hs hlen hdeep
  exact ⟨name, offset, hdecode⟩

/-- A parcel nests two deep: a place or the items, and an item inside. -/
theorem depth_limit_exact_parcel :
    encode Schema.parcelsSchema Schema.parcel (.struct 1) = .ok parcelBytes ∧
    Schema.parcel.nestingAt (.struct 1) = 2 ∧
    decode Schema.parcelsSchema ⟨2, 34⟩ parcelBytes (.struct 1) = .ok Schema.parcel ∧
    Schema.parcel.nestingAt (.struct 1) ≤ 2 ∧
    ∃ name offset, decode Schema.parcelsSchema ⟨1, 34⟩ parcelBytes (.struct 1) =
      .error (.tooDeep name 1 offset) := by
  have hencode : encode Schema.parcelsSchema Schema.parcel (.struct 1) = .ok parcelBytes := by rfl
  have hdecode : decode Schema.parcelsSchema ⟨2, 34⟩ parcelBytes (.struct 1) =
      .ok Schema.parcel := by rfl
  exact ⟨hencode, by decide, hdecode,
    (depth_limit_exact Schema.resolve_parcels ⟨2, 34⟩ _).1 _ _ hdecode,
    (depth_limit_exact Schema.resolve_parcels ⟨1, 34⟩ _).2 _ _ hencode (by decide) (by decide)⟩

end Codec

end SchemaRpc
