/-
# Decoding what was encoded

A reader with the writer's own schema is a reader whose types are related by equality, so the
round trip is a case of reading with another version: nothing is passed over or retyped, and only
the fields that were not sent may change.
-/
import SchemaRpc.Proofs.Codec.Encodable
import SchemaRpc.Proofs.Codec.Versions

namespace SchemaRpc

namespace Codec

variable {s : Schema}

/-- Every type fits itself. -/
lemma fits_self (hs : s.Ascends) (a b : TypeRef) (h : a = b) : Fits s s Eq a b := by
  subst h
  cases a with
  | prim p => exact .prim p
  | enum id => exact .enum fun _ hn => hn
  | array item => exact .array rfl
  | union id => exact .union fun v hv => ⟨v, hv, rfl, rfl⟩
  | struct id =>
    have hsame {f g : Schema.Field} (hf : f ∈ (s.structType id).fields)
        (hg : g ∈ (s.structType id).fields) (htag : f.tag = g.tag) : f = g := by
      have hascends := hs.structType id
      have hfind := hascends.fieldByTag?_tag hf
      rw [htag, hascends.fieldByTag?_tag hg] at hfind
      exact (Option.some.inj hfind).symm
    refine .struct ⟨fun f hf g hg htag => ?_, fun f hf g hg htag ho => ?_, fun g hg hm => ?_⟩
    · rw [hsame hf hg htag]
    · rwa [← hsame hf hg htag]
    · exact ⟨g, hg, rfl, hm⟩

/-- What is written as a payload is a payload of the normal form. -/
lemma WritesPayload.isPayload_normalise (hs : s.Ascends) {type : TypeRef} {v : Value}
    {bytes : Bytes} (h : WritesPayload s type v bytes) {depth : Nat}
    (hdepth : v.nestingAt type ≤ depth) :
    IsPayload s depth type bytes (v.normalise s type) := by
  rw [← h.encodable.project_eq_normalise hs]
  exact h.isPayload hs hs (fits_self hs) rfl hdepth

/-- A record comes back in its normal form. -/
theorem decodeStruct_of_encodeRecord (hs : s.Ascends) {id : Nat} {r : Record} {bytes : Bytes}
    (h : encodeRecord s id r = .ok bytes) {limits : Limits}
    (hlen : bytes.length ≤ limits.maxPayload)
    (hdepth : (Value.struct r).nestingAt (.struct id) ≤ limits.maxDepth) :
    decodeStruct s limits bytes id = .ok (r.normalise s id) := by
  have hpayload := ((encode_struct_eq_ok_iff hs).mp h).isPayload_normalise hs hdepth
  rw [Value.normalise_struct (hs.structType id)] at hpayload
  exact (decodeStruct_eq_ok_iff hs).mpr ⟨hlen, hpayload⟩

/-- **Round trip.**  What is encoded decodes to the normal form of the value, and to the value
itself if its unsent fields are as a reader leaves them. -/
theorem decode_encode {p : Package} (hp : Schema.resolve p = .ok s) {type : TypeRef} {v : Value}
    {bytes : Bytes} (h : encode s v type = .ok bytes) {limits : Limits}
    (hlen : bytes.length ≤ limits.maxPayload) (hdepth : v.nestingAt type ≤ limits.maxDepth) :
    decode s limits bytes type = .ok (v.normalise s type) ∧
      (Settled s type v → decode s limits bytes type = .ok v) := by
  have hs := Schema.ascends_of_resolve hp
  have hwritten := (encode_eq_ok_iff hs).mp h
  have hdecode : decode s limits bytes type = .ok (v.normalise s type) :=
    (decode_eq_ok_iff hs).mpr ⟨hlen, hwritten.isPayload_normalise hs hdepth⟩
  refine ⟨hdecode, fun hsettled => ?_⟩
  rw [hdecode, hwritten.encodable.normalise_eq_self hs hsettled]

/-- A parcel with an item of which the count is left out comes back with the default. -/
theorem decode_encode_parcel :
    encode Schema.parcelsSchema Schema.parcel (.struct 1) = .ok parcelBytes ∧
      decode Schema.parcelsSchema .default parcelBytes (.struct 1) =
        .ok (Schema.parcel.normalise Schema.parcelsSchema (.struct 1)) := by
  have hencode : encode Schema.parcelsSchema Schema.parcel (.struct 1) = .ok parcelBytes := by rfl
  exact ⟨hencode, (decode_encode Schema.resolve_parcels hencode (by decide) (by decide)).1⟩

end Codec

end SchemaRpc
