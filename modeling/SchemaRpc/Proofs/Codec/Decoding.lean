/-
# Decoding accepts exactly the payloads of a type

Each operation of the decoder is described by the relation for its level: the members of a
struct, the active member of a union, the items of an array, and from these, by induction on the
budget, the members of any type.

* An operation on a member takes bytes off the front of a range: `Parses`.
* An operation on the inside of a block succeeds on the range as a whole: `Covers`.
-/
import SchemaRpc.Proofs.Codec.Records

namespace SchemaRpc

namespace Codec

open Wire

/-! ## Unions and arrays -/

section

variable {s : Schema} {limit budget id : Nat} {member : MemberDecoder}
  {inner : TypeRef → Kind → Bytes → Value → Prop}
  (hmember : ∀ type kind, Parses (member type kind) (inner type kind))

include hmember

theorem covers_decodeVariant :
    Covers (decodeVariant s member id) (IsVariant inner (s.unionType id)) := by
  intro r a
  constructor
  · rintro ⟨after, h⟩
    obtain ⟨_, _, ⟨⟩, h⟩ := bind_eq_ok_iff.mp h
    obtain ⟨⟨kind, tag⟩, r₁, hheader, h⟩ := bind_eq_ok_iff.mp h
    obtain ⟨head, hh, hpast⟩ := (Reader.parses_readHeader _ _ _).mp
      ((framed_eq_ok_iff _ _).mp hheader)
    cases hv : (s.unionType id).variantByTag? tag with
    | none =>
      simp only [hv] at h
      cases h
    | some v =>
      simp only [hv] at h
      obtain ⟨payload, r₂, hpayload, h⟩ := bind_eq_ok_iff.mp h
      obtain ⟨body, hb, hpast₂⟩ := (hmember _ _ _ _ _).mp hpayload
      obtain ⟨_, _, ⟨⟩, h⟩ := bind_eq_ok_iff.mp h
      -- nothing may follow the payload in the range
      split at h
      · rename_i hempty
        obtain ⟨rfl, -⟩ := pure_eq_ok_iff.mp h
        rw [hpast.rest_eq, hpast₂.rest_eq, List.isEmpty_iff.mp hempty, List.append_nil,
          (Schema.UnionType.mem_of_variantByTag? hv).2]
        exact .mk hh hv hb
      · cases h
  · obtain ⟨offset, bytes⟩ := r
    rintro @⟨kind, tag, head, body, v, payload, hh, hv, hb⟩
    have hheader := (parses_framed s (.union id) Reader.parses_readHeader).run hh offset body
    have hpayload := (hmember v.type kind).run hb (offset + head.length) []
    rw [List.append_nil] at hpayload
    refine ⟨⟨offset + head.length + body.length, []⟩, bind_eq_ok_iff.mpr ⟨_, _, rfl, ?_⟩⟩
    refine bind_eq_ok_iff.mpr ⟨_, _, hheader, ?_⟩
    simp only [hv]
    refine bind_eq_ok_iff.mpr ⟨_, _, hpayload, bind_eq_ok_iff.mpr ⟨_, _, rfl, ?_⟩⟩
    rw [(Schema.UnionType.mem_of_variantByTag? hv).2]
    rfl

lemma parses_decodeItems (item : TypeRef) (count : Nat) (done : List Value) :
    Parses (decodeItems s member item count done) fun bytes values =>
      ∃ more, Items inner item bytes more ∧ more.length = count ∧ values = done.reverse ++ more := by
  -- `done` holds the items so far, the last one first
  induction count generalizing done with
  | zero =>
    refine (Parses.pure _).congr fun bytes values => ?_
    constructor
    · rintro ⟨rfl, rfl⟩
      exact ⟨[], .nil, rfl, (List.append_nil _).symm⟩
    · rintro ⟨more, hitems, hlen, rfl⟩
      obtain rfl := List.length_eq_zero_iff.mp hlen
      cases hitems
      exact ⟨rfl, List.append_nil _⟩
  | succ count ih =>
    refine (Parses.get_bind fun start => (parses_framed s (.array item)
      Reader.parses_readHeader).bind fun header => Parses.ite (c := header.tag ≠ .zero)
        (parses_malformed s _ _ _) ((hmember item header.kind).bind fun value =>
          ih (value :: done))).congr fun bytes values => ?_
    constructor
    · rintro ⟨⟨kind, tag⟩, head, back, rfl, hh, hback⟩
      split at hback
      · exact hback.elim
      · rename_i htag
        obtain rfl : tag = .zero := not_not.mp htag
        obtain ⟨value, body, rest, rfl, hb, more, hitems, rfl, rfl⟩ := hback
        exact ⟨value :: more, .cons hh hb hitems, rfl, by simp⟩
    · rintro ⟨more, hitems, hlen, rfl⟩
      cases hitems with
      | nil => cases hlen
      | @cons kind head body rest value more hh hb hitems =>
        refine ⟨⟨kind, .zero⟩, head, body ++ rest, rfl, hh, ?_⟩
        rw [if_neg (not_not.mpr rfl)]
        exact ⟨value, body, rest, rfl, hb, more, hitems, Nat.succ.inj hlen, by simp⟩

end

/-! ## Members of any type -/

/-- The inside of a nested block. -/
lemma parses_nested {α : Type} {op : Decoding α} {P : Bytes → α → Prop} (s : Schema)
    (type : TypeRef) (kind : Kind) (g : α → Value) (h : Covers op P) :
    Parses (do
      let block ← framed s type (Reader.readBlock kind)
      return g (← within block op) : Decoding Value) fun bytes v =>
        ∃ content a, IsBlock kind bytes content ∧ P content a ∧ v = g a := by
  intro r v after
  constructor
  · intro hrun
    obtain ⟨block, r₁, hblock, hrun⟩ := bind_eq_ok_iff.mp hrun
    obtain ⟨bytes, hb, hpast, -⟩ := Reader.readBlock_eq_ok_iff.mp ((framed_eq_ok_iff _ _).mp hblock)
    obtain ⟨a, r₂, hwithin, hpure⟩ := bind_eq_ok_iff.mp hrun
    obtain ⟨rfl, hcontent⟩ := within_eq_ok_iff.mp hwithin
    obtain ⟨rfl, rfl⟩ := pure_eq_ok_iff.mp hpure
    exact ⟨bytes, ⟨block.rest, a, hb, (h block a).mp hcontent, rfl⟩, hpast⟩
  · rintro ⟨bytes, ⟨content, a, hb, ha, rfl⟩, hpast⟩
    have hlt := hb.length_lt
    have hoffset := hpast.offset_eq
    have hblock : Reader.readBlock kind r = .ok ⟨after.offset - content.length, content⟩ after :=
      Reader.readBlock_eq_ok_iff.mpr ⟨bytes, hb, hpast, by dsimp only; omega⟩
    refine bind_eq_ok_iff.mpr ⟨_, after, (framed_eq_ok_iff s type).mpr hblock, ?_⟩
    refine bind_eq_ok_iff.mpr ⟨a, after, within_eq_ok_iff.mpr ⟨rfl, ?_⟩, rfl⟩
    exact (h ⟨_, content⟩ a).mpr ha

/-- The items of an array are read from its bytes. -/
lemma Items.readWithin {inner : TypeRef → Kind → Bytes → Value → Prop} {item : TypeRef}
    {bytes : Bytes} {values : List Value} (h : Items inner item bytes values) {n : Nat}
    (hn : bytes.length ≤ n) : ∀ x ∈ values, ReadWithin inner n item x := by
  induction h with
  | nil => exact List.forall_mem_nil _
  | @cons kind head body more value values hh hb h ih =>
    simp only [List.length_append] at hn
    rw [List.forall_mem_cons]
    exact ⟨⟨kind, body, by omega, hb⟩, ih (by omega)⟩

/-- Every item of an array takes a byte. -/
lemma Items.length_le {inner : TypeRef → Kind → Bytes → Value → Prop} {item : TypeRef}
    {bytes : Bytes} {values : List Value} (h : Items inner item bytes values) :
    values.length ≤ bytes.length := by
  induction h with
  | nil => exact Nat.le_refl 0
  | cons hh hb h ih =>
    have hpos := hh.length_pos
    simp only [List.length_cons, List.length_append]
    omega

lemma parses_array {member : MemberDecoder} {inner : TypeRef → Kind → Bytes → Value → Prop}
    (hmember : ∀ type kind, Parses (member type kind) (inner type kind)) (s : Schema)
    (item : TypeRef) (kind : Kind) :
    Parses (do
      let count ← framed s (.array item) (Reader.readRepeat kind)
      return .array (← decodeItems s member item count []) : Decoding Value) fun bytes v =>
        ∃ front content values, kind = .repeated ∧ bytes = front ++ content ∧ front.length = 4 ∧
          Bytes.toNat front = values.length ∧ Items inner item content values ∧
          v = .array values := by
  intro r v after
  constructor
  · intro hrun
    obtain ⟨count, r₁, hcount, hrun⟩ := bind_eq_ok_iff.mp hrun
    obtain ⟨rfl, front, hfront, rfl, hpast, -⟩ :=
      Reader.readRepeat_eq_ok_iff.mp ((framed_eq_ok_iff _ _).mp hcount)
    obtain ⟨values, r₂, hitems, hrun⟩ := bind_eq_ok_iff.mp hrun
    obtain ⟨content, ⟨values, hcontent, hlen, rfl⟩, hpast₂⟩ :=
      (parses_decodeItems hmember item _ [] _ _ _).mp hitems
    obtain ⟨rfl, rfl⟩ := pure_eq_ok_iff.mp hrun
    exact ⟨front ++ content, ⟨front, content, values, rfl, rfl, hfront, hlen.symm, hcontent, rfl⟩,
      hpast.append hpast₂⟩
  · rintro ⟨_, ⟨front, content, values, rfl, rfl, hfront, hlen, hcontent, rfl⟩, hpast⟩
    obtain ⟨r₁, hpast₁, hpast₂⟩ := hpast.exists_of_append
    -- the count has to be covered by the bytes left before any item is read
    have hle : values.length ≤ r₁.rest.length := by
      have := hcontent.length_le
      have := hpast₂.length_eq
      omega
    have hcount : Reader.readRepeat .repeated r = .ok values.length r₁ :=
      Reader.readRepeat_eq_ok_iff.mpr ⟨rfl, front, hfront, hlen.symm, hpast₁, hle⟩
    have hitems : decodeItems s member item values.length [] r₁ = .ok values after :=
      (parses_decodeItems hmember item _ [] _ _ _).mpr
        ⟨content, ⟨values, hcontent, rfl, rfl⟩, hpast₂⟩
    refine bind_eq_ok_iff.mpr ⟨_, r₁, (framed_eq_ok_iff s _).mpr hcount, ?_⟩
    exact bind_eq_ok_iff.mpr ⟨values, after, hitems, rfl⟩

section

variable {s : Schema} (hs : s.Ascends)

include hs

/-- **Decoding a member.**  What is decoded after a header are exactly the bytes of a value of the
type, nested within the budget. -/
theorem parses_decodeMember (limit depth : Nat) (type : TypeRef) (kind : Kind) :
    Parses (decodeMember s limit depth type kind) (Body s depth type kind) := by
  induction depth generalizing type kind with
  | zero =>
    cases type with
    | prim p => exact parses_decodePrimitive s p kind
    | enum id => exact parses_decodeEnum s id kind
    | struct id | union id | array item =>
      -- the budget is used up: the decoder fails, and no bytes are a body at depth zero
      exact Parses.get_bind fun start => .throw _
  | succ depth ih =>
    cases type with
    | prim p => exact parses_decodePrimitive s p kind
    | enum id => exact parses_decodeEnum s id kind
    | struct id =>
      exact parses_nested s (.struct id) kind .struct
        (covers_decodeRecord ih (hs.structType id))
    | union id =>
      exact parses_nested s (.union id) kind (fun active => .union active.1 active.2)
        (covers_decodeVariant ih)
    | array item => exact parses_array ih s item kind

end

/-! ## Payloads -/

/-- What is covered, made into a value. -/
lemma Covers.bind_pure {ε α β : Type} {op : EStateM ε Reader α} {P : Bytes → α → Prop}
    (h : Covers op P) (g : α → β) :
    Covers (op >>= fun a => pure (g a)) fun bytes b => ∃ a, P bytes a ∧ b = g a := by
  intro r b
  constructor
  · rintro ⟨after, hrun⟩
    obtain ⟨a, r₁, hop, hpure⟩ := bind_eq_ok_iff.mp hrun
    obtain ⟨rfl, -⟩ := pure_eq_ok_iff.mp hpure
    exact ⟨a, (h r a).mp ⟨r₁, hop⟩, rfl⟩
  · rintro ⟨a, ha, rfl⟩
    obtain ⟨r₁, hop⟩ := (h r a).mpr ha
    exact ⟨r₁, bind_eq_ok_iff.mpr ⟨a, r₁, hop, rfl⟩⟩

lemma Covers.congr {ε α : Type} {op : EStateM ε Reader α} {P Q : Bytes → α → Prop}
    (h : Covers op P) (hPQ : ∀ bytes a, P bytes a ↔ Q bytes a) : Covers op Q := by
  intro r a
  rw [h r a, hPQ]

/-- A member with tag zero that fills the range. -/
lemma covers_member {inner : Kind → Bytes → Value → Prop} {member : Kind → Decoding Value}
    (hmember : ∀ kind, Parses (member kind) (inner kind)) (s : Schema) (type : TypeRef) :
    Covers (do
      let start ← get
      let header ← framed s type Reader.readHeader
      if header.tag ≠ .zero then malformed s type start.offset (.topLevelTag header.tag)
      else
        let value ← member header.kind
        let after ← get
        if after.isEmpty then return value
        else malformed s type after.offset .trailingValue : Decoding Value) fun bytes value =>
      ∃ kind head body, bytes = head ++ body ∧ IsHeader head ⟨kind, .zero⟩ ∧
        inner kind body value := by
  intro r value
  constructor
  · rintro ⟨after, h⟩
    obtain ⟨_, _, ⟨⟩, h⟩ := bind_eq_ok_iff.mp h
    obtain ⟨⟨kind, tag⟩, r₁, hheader, h⟩ := bind_eq_ok_iff.mp h
    obtain ⟨head, hh, hpast⟩ := (Reader.parses_readHeader _ _ _).mp
      ((framed_eq_ok_iff _ _).mp hheader)
    split at h
    · cases h
    rename_i htag
    obtain rfl : tag = .zero := not_not.mp htag
    obtain ⟨value, r₂, hvalue, h⟩ := bind_eq_ok_iff.mp h
    obtain ⟨body, hb, hpast₂⟩ := (hmember _ _ _ _).mp hvalue
    obtain ⟨_, _, ⟨⟩, h⟩ := bind_eq_ok_iff.mp h
    split at h
    · rename_i hempty
      obtain ⟨rfl, -⟩ := pure_eq_ok_iff.mp h
      rw [hpast.rest_eq, hpast₂.rest_eq, List.isEmpty_iff.mp hempty, List.append_nil]
      exact ⟨kind, head, body, rfl, hh, hb⟩
    · cases h
  · obtain ⟨offset, bytes⟩ := r
    rintro ⟨kind, head, body, rfl, hh, hb⟩
    have hheader := (parses_framed s type Reader.parses_readHeader).run hh offset body
    have hvalue := (hmember kind).run hb (offset + head.length) []
    rw [List.append_nil] at hvalue
    refine ⟨⟨offset + head.length + body.length, []⟩, bind_eq_ok_iff.mpr ⟨_, _, rfl, ?_⟩⟩
    refine bind_eq_ok_iff.mpr ⟨_, _, hheader, ?_⟩
    rw [if_neg (not_not.mpr rfl)]
    exact bind_eq_ok_iff.mpr ⟨_, _, hvalue, bind_eq_ok_iff.mpr ⟨_, _, rfl, rfl⟩⟩

lemma isPayload_struct_iff {s : Schema} {depth id : Nat} {bytes : Bytes} {v : Value} :
    IsPayload s depth (.struct id) bytes v ↔ ∃ r,
      IsRecord (Skips depth) (Body s depth) (s.structType id) bytes r ∧ v = .struct r := by
  constructor
  · intro h
    cases h with
    | struct h => exact ⟨_, h, rfl⟩
    | member hstruct => exact absurd rfl (hstruct id)
  · rintro ⟨r, h, rfl⟩
    exact .struct h

lemma isPayload_union_iff {s : Schema} {depth id : Nat} {bytes : Bytes} {v : Value} :
    IsPayload s depth (.union id) bytes v ↔ ∃ active,
      IsVariant (Body s depth) (s.unionType id) bytes active ∧ v = .union active.1 active.2 := by
  constructor
  · intro h
    cases h with
    | union h => exact ⟨_, h, rfl⟩
    | member hstruct hunion => exact absurd rfl (hunion id)
  · rintro ⟨⟨tag, payload⟩, h, rfl⟩
    exact .union h

lemma isPayload_member_iff {s : Schema} {depth : Nat} {type : TypeRef}
    (hstruct : ∀ id, type ≠ .struct id) (hunion : ∀ id, type ≠ .union id) {bytes : Bytes}
    {v : Value} : IsPayload s depth type bytes v ↔ ∃ kind head body, bytes = head ++ body ∧
      IsHeader head ⟨kind, .zero⟩ ∧ Body s depth type kind body v := by
  constructor
  · intro h
    cases h with
    | @struct id => exact absurd rfl (hstruct id)
    | @union id => exact absurd rfl (hunion id)
    | member _ _ hh hb => exact ⟨_, _, _, rfl, hh, hb⟩
  · rintro ⟨kind, head, body, rfl, hh, hb⟩
    exact .member hstruct hunion hh hb

lemma onPayload_eq_ok_iff {α : Type} {op : Decoding α} {P : Bytes → α → Prop} (h : Covers op P)
    {limits : Limits} {payload : Bytes} {a : α} :
    onPayload limits payload op = .ok a ↔ payload.length ≤ limits.maxPayload ∧ P payload a := by
  have hrun : (∃ after, op (.ofBytes payload) = .ok a after) ↔ P payload a :=
    h (.ofBytes payload) a
  rw [← hrun, onPayload]
  by_cases hlen : limits.maxPayload < payload.length
  · rw [if_pos hlen]
    constructor
    · intro h
      cases h
    · rintro ⟨hle, -⟩
      omega
  · rw [if_neg hlen, and_iff_right (Nat.le_of_not_lt hlen)]
    cases op (.ofBytes payload) <;> simp

lemma onPayload_of_error {α : Type} {op : Decoding α} {limits : Limits} {payload : Bytes}
    {e : DecodeError} {after : Reader} (hlen : payload.length ≤ limits.maxPayload)
    (h : op (.ofBytes payload) = .error e after) : onPayload limits payload op = .error e := by
  rw [onPayload, if_neg (Nat.not_lt.mpr hlen), h]

section

variable {s : Schema} (hs : s.Ascends) {limits : Limits}

include hs

theorem covers_decodeTop (type : TypeRef) :
    Covers (decodeTop s limits type) (IsPayload s limits.maxDepth type) := by
  have hmember := parses_decodeMember hs limits.maxDepth limits.maxDepth
  cases type with
  | struct id =>
    have hrecord : Covers (decodeRecord s limits.maxDepth limits.maxDepth
        (decodeMember s limits.maxDepth limits.maxDepth) id) _ :=
      covers_decodeRecord hmember (hs.structType id)
    exact (hrecord.bind_pure Value.struct).congr fun bytes v => isPayload_struct_iff.symm
  | union id =>
    -- a struct or union that stands by itself is not nested, so the budget is not touched
    exact ((covers_decodeVariant hmember).bind_pure fun active =>
      Value.union active.1 active.2).congr fun bytes v => isPayload_union_iff.symm
  | prim p =>
    exact (covers_member (hmember (.prim p)) s (.prim p)).congr fun bytes v =>
      (isPayload_member_iff (by simp) (by simp)).symm
  | enum id =>
    exact (covers_member (hmember (.enum id)) s (.enum id)).congr fun bytes v =>
      (isPayload_member_iff (by simp) (by simp)).symm
  | array item =>
    exact (covers_member (hmember (.array item)) s (.array item)).congr fun bytes v =>
      (isPayload_member_iff (by simp) (by simp)).symm

/-- **Decoding a payload.**  A payload decodes to a value exactly when it is a payload of the
value and keeps to the limits. -/
theorem decode_eq_ok_iff {payload : Bytes} {type : TypeRef} {v : Value} :
    decode s limits payload type = .ok v ↔
      payload.length ≤ limits.maxPayload ∧ IsPayload s limits.maxDepth type payload v :=
  onPayload_eq_ok_iff (covers_decodeTop hs type)

/-- A payload decodes to a record exactly when it is a payload of the struct value. -/
theorem decodeStruct_eq_ok_iff {payload : Bytes} {id : Nat} {r : Record} :
    decodeStruct s limits payload id = .ok r ↔
      payload.length ≤ limits.maxPayload ∧
        IsPayload s limits.maxDepth (.struct id) payload (.struct r) := by
  have hmember := parses_decodeMember hs limits.maxDepth limits.maxDepth
  rw [decodeStruct, onPayload_eq_ok_iff
    (covers_decodeRecord hmember (hs.structType id)), isPayload_struct_iff]
  simp

end

end Codec

end SchemaRpc
