/-
# Encoding what was decoded

Whatever bytes a value was decoded from, it can be encoded again, and it reads back as the same
value within the same depth.  Encoding fails on lengths of more than four bytes only, once a
value has the shape of its type.  So a bound on the payload is enough, as the written bytes grow
by a ratio at most; the bound of every member follows from that of the payload.
-/
import SchemaRpc.Proofs.Codec.Growth
import SchemaRpc.Proofs.Codec.RoundTrip

namespace SchemaRpc

namespace Codec

open Wire

/-! ## Shapes that can be sent -/

section

variable {s : Schema}

/-- A record in which every field is in a state that it allows can be sent. -/
lemma Conforms.sendable {id : Nat} {r : Record} (h : Conforms s (.struct id) (.struct r))
    (hascends : (s.structType id).Ascends) : (s.structType id).Sendable r := by
  cases h with
  | struct hdeclared hallowed hvalues =>
    refine ⟨fun t ht => ?_, fun f hf hnull => ?_, fun f hf hm => ?_⟩
    · obtain ⟨f, hf, htag⟩ := hdeclared t ht
      by_contra hnone
      exact hascends.fieldByTag?_eq_none_iff.mp (by simpa using hnone) f hf htag
    · have hallows := hallowed f hf
      rw [hnull] at hallows
      cases hallows with
      | null ho => exact ho
    · obtain ⟨x, hx⟩ := (hallowed f hf).present_of_isMandatory hm
      rw [hx]
      rfl

/-- A value that conforms is as a reader leaves it. -/
lemma Conforms.settled (hs : s.Ascends) {type : TypeRef} {v : Value} (h : Conforms s type v) :
    Settled s type v := by
  intro id r hpart f hf
  cases h.of_contains hs hpart with
  | struct hdeclared hallowed hvalues =>
    refine ⟨fun d hstate => ?_, fun hstate => ?_⟩
    · have hallows := hallowed f hf
      rw [hstate] at hallows
      cases hallows with
      | defaulted hd => exact hd
    · have hallows := hallowed f hf
      rw [hstate] at hallows
      cases hallows with
      | absent ho hd => exact hd

end

/-! ## Depth -/

lemma IsScalar.nesting_eq {p : Primitive} {kind : Kind} {bytes : Bytes} {v : Value}
    (h : IsScalar p kind bytes v) : v.nesting = 0 := by
  cases h <;> rfl

lemma IsLabel.nesting_eq {e : Schema.EnumType} {kind : Kind} {bytes : Bytes} {v : Value}
    (h : IsLabel e kind bytes v) : v.nesting = 0 := by
  cases h
  rfl

section

variable {skips : Kind → Bytes → Prop} {inner : TypeRef → Kind → Bytes → Value → Prop} {depth : Nat}
  (hinner : ∀ {type kind body v}, inner type kind body v → v.nesting ≤ depth)

include hinner

lemma IsRecord.nesting_le {struct : Schema.StructType} (hascends : struct.Ascends)
    {bytes : Bytes} {r : Record} (h : IsRecord skips inner struct bytes r) :
    (Value.struct r).nesting ≤ depth + 1 := by
  refine Value.nesting_struct_le_succ_iff.mpr fun t x hx => ?_
  obtain ⟨f, hf, rfl⟩ := h.exists_field hascends hx
  obtain ⟨kind, body, -, hvalue⟩ := h.readWithin hascends hf hx
  exact hinner hvalue

lemma IsVariant.nesting_le {union : Schema.UnionType} {bytes : Bytes} {active : Tag × Value}
    (h : IsVariant inner union bytes active) :
    (Value.union active.1 active.2).nesting ≤ depth + 1 := by
  obtain ⟨hh, hv, hb⟩ := h
  exact Value.nesting_union_le_iff.mpr ⟨depth, rfl, hinner hb⟩

lemma Items.nesting_le {item : TypeRef} {bytes : Bytes} {values : List Value}
    (h : Items inner item bytes values) : (Value.array values).nesting ≤ depth + 1 := by
  refine Value.nesting_array_le_iff.mpr ⟨depth, rfl, fun x hx => ?_⟩
  obtain ⟨kind, body, -, hvalue⟩ := h.readWithin (Nat.le_refl _) x hx
  exact hinner hvalue

end

section

variable {s : Schema} (hs : s.Ascends)

include hs

/-- What is read within a depth nests no deeper. -/
lemma Body.nesting_le {depth : Nat} {type : TypeRef} {kind : Kind} {bytes : Bytes} {v : Value}
    (h : Body s depth type kind bytes v) : v.nesting ≤ depth := by
  induction h using Body.induction with
  | scalar h => exact (Nat.le_of_eq h.nesting_eq).trans (Nat.zero_le _)
  | label h => exact (Nat.le_of_eq h.nesting_eq).trans (Nat.zero_le _)
  | struct hblock hr ih => exact hr.nesting_le ih (hs.structType _)
  | union hblock hactive ih => exact hactive.nesting_le ih
  | array hfront hcount hitems ih => exact hitems.nesting_le ih

lemma IsPayload.nestingAt_le {depth : Nat} {type : TypeRef} {bytes : Bytes} {v : Value}
    (h : IsPayload s depth type bytes v) : v.nestingAt type ≤ depth := by
  cases h with
  | struct h =>
    have hle := h.nesting_le (Body.nesting_le hs) (hs.structType _)
    exact Nat.sub_le_of_le_add hle
  | union h =>
    have hle := h.nesting_le (Body.nesting_le hs)
    exact Nat.sub_le_of_le_add hle
  | member hstruct hunion hh hb =>
    rw [Value.nestingAt_of_ne hstruct hunion]
    exact hb.nesting_le hs

end

/-! ## Success -/

section

variable {s : Schema}

lemma IsScalar.exists_writes {p : Primitive} {kind : Kind} {bytes : Bytes} {v : Value}
    (h : IsScalar p kind bytes v) (hlen : bytes.length < lengthLimit) :
    ∃ q, Writes s (.prim p) v q := by
  cases h with
  | bool hw hn => exact ⟨_, .bool _⟩
  | int hw hn => exact ⟨_, .int _ _⟩
  | f32 hl => exact ⟨_, .f32 _⟩
  | f64 hl => exact ⟨_, .f64 _⟩
  | string hb => exact ⟨_, .string (hb.length_lt.trans hlen)⟩
  | bytes hb => exact ⟨_, .bytes (hb.length_lt.trans hlen)⟩

lemma IsLabel.exists_writes {id : Nat} {kind : Kind} {bytes : Bytes} {v : Value}
    (h : IsLabel (s.enumType id) kind bytes v) : ∃ q, Writes s (.enum id) v q := by
  cases h with
  | mk hw hn hc => exact ⟨_, .enum hc⟩

variable {skips : Kind → Bytes → Prop} {inner : TypeRef → Kind → Bytes → Value → Prop} {n : Nat}
  (hinner : ∀ {type kind body v}, inner type kind body v → body.length ≤ n →
    ∃ q, Writes s type v q)

include hinner

lemma IsRecord.exists_part {struct : Schema.StructType} (hascends : struct.Ascends)
    {bytes : Bytes} {r : Record} (h : IsRecord skips inner struct bytes r)
    (hlen : bytes.length ≤ n) : ∃ part : Schema.Field → Piece, ∀ f ∈ struct.fields, ∀ x,
      r.get f.tag = .present x → Writes s f.type x (part f) := by
  have hpart (f : Schema.Field) (hf : f ∈ struct.fields) :
      ∃ q, ∀ x, r.get f.tag = .present x → Writes s f.type x q := by
    cases hstate : r.get f.tag with
    | present x =>
      obtain ⟨kind, body, hle, hvalue⟩ := h.readWithin hascends hf hstate
      obtain ⟨q, hq⟩ := hinner hvalue (hle.trans hlen)
      exact ⟨q, fun y hy => FieldState.present.inj hy ▸ hq⟩
    | null | defaulted | absent => exact ⟨default, fun _ h => (nomatch h)⟩
  choose! part hwrites using hpart
  exact ⟨part, hwrites⟩

lemma IsVariant.exists_part {union : Schema.UnionType} {bytes : Bytes} {active : Tag × Value}
    (h : IsVariant inner union bytes active) (hlen : bytes.length ≤ n) :
    ∃ v q, union.variantByTag? active.1 = some v ∧ Writes s v.type active.2 q := by
  obtain ⟨hh, hv, hb⟩ := h
  rw [List.length_append] at hlen
  obtain ⟨q, hq⟩ := hinner hb (by omega)
  exact ⟨_, q, hv, hq⟩

lemma Items.exists_part {item : TypeRef} {bytes : Bytes} {values : List Value}
    (h : Items inner item bytes values) (hlen : bytes.length ≤ n) :
    ∃ part : Value → Piece, ∀ x ∈ values, Writes s item x (part x) := by
  have hpart (x : Value) (hx : x ∈ values) : ∃ q, Writes s item x q := by
    obtain ⟨kind, body, hle, hvalue⟩ := h.readWithin hlen x hx
    exact hinner hvalue hle
  choose! part hwrites using hpart
  exact ⟨part, hwrites⟩

end

section

variable {s : Schema} (hs : s.Ascends)

include hs

/-- Bytes of a member that are short enough are those of a value that can be written. -/
lemma Body.exists_writes {depth : Nat} {type : TypeRef} {kind : Kind} {bytes : Bytes} {v : Value}
    (h : Body s depth type kind bytes v) (hlen : bytes.length ≤ 64 * 1024 * 1024) :
    ∃ q, Writes s type v q := by
  -- what a length of four bytes allows leaves room for the ratio
  have hlimit : 5 * (64 * 1024 * 1024) < 2 * lengthLimit := by decide
  induction h using Body.induction with
  | scalar h => exact h.exists_writes (by omega)
  | label h => exact h.exists_writes
  | @struct depth id kind bytes content r hblock hr ih =>
    have hlt := hblock.length_lt
    have hascends := hs.structType id
    have hconforms := hr.conforms (Body.conforms hs) hascends
    obtain ⟨part, hpart⟩ := hr.exists_part ih hascends (by omega)
    have hgrowth := hr.length_recordBytes_le (fun h => h.length_body_le hs) hascends hpart
    exact ⟨_, .struct (hconforms.sendable hascends) hpart (by omega)⟩
  | union hblock hactive ih =>
    have hlt := hblock.length_lt
    obtain ⟨v, q, hv, hq⟩ := hactive.exists_part ih (by omega)
    have hgrowth := hactive.length_bytes_le (fun h => h.length_body_le hs) hv hq
    exact ⟨_, .union hv hq (by omega)⟩
  | array hfront hcount hitems ih =>
    rw [List.length_append] at hlen
    obtain ⟨part, hpart⟩ := hitems.exists_part ih (by omega)
    have hle := hitems.length_le
    exact ⟨_, .array (by omega) hpart⟩

lemma IsPayload.exists_writes {depth : Nat} {type : TypeRef} {bytes : Bytes} {v : Value}
    (h : IsPayload s depth type bytes v) (hlen : bytes.length ≤ 64 * 1024 * 1024) :
    ∃ bytes', WritesPayload s type v bytes' := by
  have hconforms := h.conforms hs
  cases h with
  | struct h =>
    obtain ⟨part, hpart⟩ := h.exists_part (Body.exists_writes hs) (hs.structType _) hlen
    exact ⟨_, .struct (hconforms.sendable (hs.structType _)) hpart⟩
  | union h =>
    obtain ⟨v, q, hv, hq⟩ := h.exists_part (Body.exists_writes hs) hlen
    exact ⟨_, .union hv hq⟩
  | member hstruct hunion hh hb =>
    rw [List.length_append] at hlen
    obtain ⟨q, hq⟩ := hb.exists_writes hs (by omega)
    exact ⟨_, .member hstruct hunion hq⟩

end

/-! ## Forwarding -/

/-- **Forwarding.**  A value that was decoded from at most 64 mebibytes can be encoded, in at most
five halves of the bytes that it was decoded from, and is decoded from these again by a reader that
allows the same depth and as many bytes. -/
theorem encode_decode {p : Package} {s : Schema} (hp : Schema.resolve p = .ok s) {limits : Limits}
    {payload : Bytes} {type : TypeRef} {v : Value} (hlen : payload.length ≤ 64 * 1024 * 1024)
    (h : decode s limits payload type = .ok v) :
    ∃ bytes, encode s v type = .ok bytes ∧ 2 * bytes.length ≤ 5 * payload.length ∧
      ∀ limits' : Limits, limits.maxDepth ≤ limits'.maxDepth → bytes.length ≤ limits'.maxPayload →
        decode s limits' bytes type = .ok v := by
  have hs := Schema.ascends_of_resolve hp
  have hpayload := ((decode_eq_ok_iff hs).mp h).2
  obtain ⟨bytes, hwritten⟩ := hpayload.exists_writes hs hlen
  refine ⟨bytes, (encode_eq_ok_iff hs).mpr hwritten, hpayload.length_le hs hwritten, ?_⟩
  intro limits' hdepth hmax
  have hself : v.normalise s type = v :=
    hwritten.encodable.normalise_eq_self hs ((hpayload.conforms hs).settled hs)
  have hread := hwritten.isPayload_normalise hs ((hpayload.nestingAt_le hs).trans hdepth)
  rw [hself] at hread
  exact (decode_eq_ok_iff hs).mpr ⟨hmax, hread⟩

/-- A parcel without a place, in bytes with a header and an integer that are wider than needed, a
short block and an unknown tag. -/
def unplacedBytes : Bytes :=
  [222, 1, 44, 1, 0, 0, 2, 0, 131, 9, 229, 1, 0, 0, 0, 0, 4, 1, 2, 97, 0]

/-- A parcel that came in other bytes than it is written as. -/
theorem encode_decode_unplacedParcel :
    decode Schema.parcelsSchema .default unplacedBytes (.struct 1) = .ok Schema.unplacedParcel ∧
      ∃ bytes, encode Schema.parcelsSchema Schema.unplacedParcel (.struct 1) = .ok bytes ∧
        2 * bytes.length ≤ 5 * unplacedBytes.length ∧
        (bytes.length ≤ Limits.default.maxPayload →
          decode Schema.parcelsSchema .default bytes (.struct 1) = .ok Schema.unplacedParcel) := by
  have hdecode : decode Schema.parcelsSchema .default unplacedBytes (.struct 1) =
      .ok Schema.unplacedParcel := by rfl
  obtain ⟨bytes, hencode, hle, hread⟩ := encode_decode Schema.resolve_parcels (by decide) hdecode
  exact ⟨hdecode, bytes, hencode, hle, hread .default (Nat.le_refl _)⟩

end Codec

end SchemaRpc
