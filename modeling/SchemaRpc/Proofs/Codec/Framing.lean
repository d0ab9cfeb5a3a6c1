/-
# Reading a member and passing it over

What is read at a type could also have been passed over: the bytes of a value are a member of
their kind (`Body.skips`), by induction on the depth along the value, with one lemma for each
level of nesting.  Passing over looks at kinds only, into arrays but not into blocks, so a block
has to end where its length says, and an item where its kind says.

With this the framing of whole members carries over to payloads.

* A member that a reader knows and one that it does not know end at the same place.
* No payload of a type other than a struct is the beginning of another one, and a payload of a
  struct can only be cut between two members.
-/
import SchemaRpc.Proofs.Codec.Decoding
import SchemaRpc.Proofs.Wire.Framing

namespace SchemaRpc

namespace Codec

open Wire

/-! ## What is read may be passed over -/

lemma IsScalar.skips {p : Primitive} {kind : Kind} {bytes : Bytes} {v : Value}
    (h : IsScalar p kind bytes v) (depth : Nat) : Skips depth kind bytes := by
  cases h with
  | bool hw hn | int hw hn => exact .int hw
  | f32 hl | f64 hl => exact .int (by rw [hl]; rfl)
  | string hb | bytes hb => exact .block hb

lemma IsLabel.skips {e : Schema.EnumType} {kind : Kind} {bytes : Bytes} {v : Value}
    (h : IsLabel e kind bytes v) (depth : Nat) : Skips depth kind bytes := by
  cases h with
  | mk hw hn hc => exact .int hw

section

variable {depth : Nat} {inner : TypeRef → Kind → Bytes → Value → Prop}
  (hinner : ∀ {type kind body v}, inner type kind body v → Skips depth kind body)

include hinner

lemma Items.skips {item : TypeRef} {bytes : Bytes} {values : List Value}
    (h : Items inner item bytes values) : SkipsItems depth values.length bytes := by
  induction h with
  | nil => exact .nil
  | cons hh hb h ih => exact .cons hh (hinner hb) ih

/-- The active member of a union is one whole member. -/
lemma IsVariant.isMember {union : Schema.UnionType} {bytes : Bytes} {active : Tag × Value}
    (h : IsVariant inner union bytes active) : IsMember depth active.1 bytes := by
  cases h with
  | mk hh hv hb => exact .mk hh (hinner hb)

/-- The members of a struct are whole members. -/
lemma Members.exists_isSequence {struct : Schema.StructType} {last : Option Tag} {bytes : Bytes}
    {states : List (Tag × FieldState)}
    (h : Members (Skips depth) inner struct last bytes states) :
    ∃ tags, IsSequence depth tags bytes := by
  induction h with
  | nil => exact ⟨[], .nil⟩
  | unknown hh hlast hf hb h ih =>
    obtain ⟨tags, hseq⟩ := ih
    exact ⟨_, hseq.cons_header hh hb⟩
  | null hh hlast hf ho h ih =>
    obtain ⟨tags, hseq⟩ := ih
    exact ⟨_, hseq.cons_header hh (skips_null depth)⟩
  | present hh hlast hf hnull hb h ih =>
    obtain ⟨tags, hseq⟩ := ih
    exact ⟨_, hseq.cons_header hh (hinner hb)⟩

end

variable {s : Schema}

/-- **Reading is skipping.**  The bytes of a value of any type are a member of their kind, and
arrays nest no deeper in it than the value does. -/
theorem Body.skips {depth : Nat} {type : TypeRef} {kind : Kind} {bytes : Bytes} {v : Value}
    (h : Body s depth type kind bytes v) : Skips depth kind bytes := by
  induction h using Body.induction with
  | scalar h => exact h.skips _
  | label h => exact h.skips _
  | struct hblock hr ih => exact .block hblock
  | union hblock hactive ih => exact .block hblock
  | array hfront hcount hitems ih =>
    -- the count that was announced is that of the items that were read
    have hskips := hitems.skips ih
    rw [← hcount] at hskips
    exact .repeated hfront hskips

/-- **Skipping agrees with reading.**  Where a member is read at a type, or as a null, passing over
its kind within the same depth ends at the same place; so it does for every reader that does not
know the member. -/
theorem skip_of_decodeMember {p : Package} (hp : Schema.resolve p = .ok s) (limits : Limits)
    (depth : Nat) {type : TypeRef} {kind : Kind} {r after : Reader}
    (h : (∃ v, decodeMember s limits.maxDepth (limits.maxDepth - depth) type kind r = .ok v after) ∨
      Reader.takeNull kind r = .ok true after) :
    Reader.skip (limits.maxDepth - depth) kind r = .ok () after ∧
      ∀ (s' : Schema) (struct : TypeRef),
        passOver s' limits.maxDepth (limits.maxDepth - depth) struct kind r = .ok () after := by
  obtain ⟨bytes, hskips, hpast⟩ :
      ∃ bytes, Skips (limits.maxDepth - depth) kind bytes ∧ r.Past bytes after := by
    rcases h with ⟨v, h⟩ | h
    · obtain ⟨bytes, hb, hpast⟩ :=
        (parses_decodeMember (Schema.ascends_of_resolve hp) _ _ _ _ _ _ _).mp h
      exact ⟨bytes, hb.skips, hpast⟩
    · obtain ⟨rfl, hpast⟩ := Reader.takeNull_eq_true_iff.mp h
      exact ⟨[0], skips_null _, hpast⟩
  exact ⟨(Reader.parses_skip _ _ _ _ _).mpr ⟨bytes, hskips, hpast⟩, fun s' struct =>
    (parses_passOver s' struct _ _ _ _ _ _).mpr ⟨bytes, hskips, hpast⟩⟩

/-- Items that are read, or passed over, in the middle of other bytes. -/
theorem skip_of_decodeMember_items :
    decodeMember Schema.parcelsSchema 3 (3 - 1) (.array (.struct 0)) .repeated
        ⟨5, [1, 0, 0, 0, 0, 4, 1, 2, 97, 0, 9, 9]⟩ =
      .ok (.array [Schema.parcelItem "a" (.defaulted (.int .u8 ⟨1, by decide⟩))]) ⟨15, [9, 9]⟩ ∧
    Reader.skip (3 - 1) .repeated ⟨5, [1, 0, 0, 0, 0, 4, 1, 2, 97, 0, 9, 9]⟩ =
      .ok () ⟨15, [9, 9]⟩ := by
  have hread : decodeMember Schema.parcelsSchema 3 (3 - 1) (.array (.struct 0)) .repeated
      ⟨5, [1, 0, 0, 0, 0, 4, 1, 2, 97, 0, 9, 9]⟩ =
        .ok (.array [Schema.parcelItem "a" (.defaulted (.int .u8 ⟨1, by decide⟩))])
          ⟨15, [9, 9]⟩ := by rfl
  exact ⟨hread, (skip_of_decodeMember Schema.resolve_parcels ⟨3, 100⟩ 1 (.inl ⟨_, hread⟩)).1⟩

/-! ## Payloads -/

/-- A payload of a type other than a struct is one whole member. -/
lemma IsPayload.exists_isMember {depth : Nat} {type : TypeRef} {bytes : Bytes} {v : Value}
    (h : IsPayload s depth type bytes v) (hstruct : ∀ id, type ≠ .struct id) :
    ∃ tag, IsMember depth tag bytes := by
  cases h with
  | @struct id => exact absurd rfl (hstruct id)
  | union h => exact ⟨_, h.isMember Body.skips⟩
  | member _ _ hh hb => exact ⟨_, .mk hh hb.skips⟩

/-- A payload of a struct is whole members. -/
lemma IsPayload.exists_isSequence {depth id : Nat} {bytes : Bytes} {v : Value}
    (h : IsPayload s depth (.struct id) bytes v) : ∃ tags, IsSequence depth tags bytes := by
  obtain ⟨r, ⟨hm, hs⟩, -⟩ := isPayload_struct_iff.mp h
  exact hm.exists_isSequence Body.skips

/-- **Payloads are self-delimiting.**  A payload of a type other than a struct is neither the
beginning nor the continuation of another one.  One of a struct begins with another one only if
that ends between two of its members. -/
theorem decode_self_delimiting {p : Package} (hp : Schema.resolve p = .ok s) {limits : Limits}
    {payload : Bytes} {type : TypeRef} {v : Value} (h : decode s limits payload type = .ok v) :
    ((∀ id, type ≠ .struct id) → ∀ other v', decode s limits other type = .ok v' →
      other <+: payload ∨ payload <+: other → other = payload) ∧
    ∀ id, type = .struct id → ∀ front v', decode s limits front type = .ok v' →
      front <+: payload → ∃ back tags tags', payload = front ++ back ∧
        IsSequence limits.maxDepth tags front ∧ IsSequence limits.maxDepth tags' back := by
  have hs := Schema.ascends_of_resolve hp
  have hpayload := ((decode_eq_ok_iff hs).mp h).2
  constructor
  · intro hstruct other v' h' hprefix
    obtain ⟨tag, hm⟩ := hpayload.exists_isMember hstruct
    obtain ⟨tag', hm'⟩ := ((decode_eq_ok_iff hs).mp h').2.exists_isMember hstruct
    rcases hprefix with ⟨more, rfl⟩ | ⟨more, rfl⟩
    · exact (hm'.unique hm (List.append_nil _).symm).1
    · exact (hm'.unique hm (List.append_nil _)).1
  · rintro id rfl front v' h' ⟨back, rfl⟩
    obtain ⟨tags, hall⟩ := hpayload.exists_isSequence
    obtain ⟨tags', hfront⟩ := ((decode_eq_ok_iff hs).mp h').2.exists_isSequence
    obtain ⟨more, -, hback⟩ := hfront.of_append hall
    exact ⟨back, tags', more, rfl, hfront, hback⟩

/-- A place, which ends where its payload does, and an item without its count, which ends before
the count of another item. -/
theorem decode_self_delimiting_item :
    decode Schema.parcelsSchema .default [129, 9] (.union 0) =
        .ok (.union (.ofNat 1) (.int .u32 ⟨9, by decide⟩)) ∧
      (∀ v, decode Schema.parcelsSchema .default [129, 9, 0] (.union 0) ≠ .ok v) ∧
      decode Schema.parcelsSchema .default [1, 2, 97, 0, 130, 5] (.struct 0) =
        .ok (Schema.parcelItem "a" (.present (.int .u8 ⟨5, by decide⟩))) ∧
      decode Schema.parcelsSchema .default [1, 2, 97, 0] (.struct 0) =
        .ok (Schema.parcelItem "a" (.defaulted (.int .u8 ⟨1, by decide⟩))) ∧
      ∃ back tags tags', [1, 2, 97, 0, 130, 5] = [1, 2, 97, 0] ++ back ∧
        IsSequence 64 tags [1, 2, 97, 0] ∧ IsSequence 64 tags' back := by
  have hplace : decode Schema.parcelsSchema .default [129, 9] (.union 0) =
      .ok (.union (.ofNat 1) (.int .u32 ⟨9, by decide⟩)) := by rfl
  have hitem : decode Schema.parcelsSchema .default [1, 2, 97, 0, 130, 5] (.struct 0) =
      .ok (Schema.parcelItem "a" (.present (.int .u8 ⟨5, by decide⟩))) := by rfl
  have hfront : decode Schema.parcelsSchema .default [1, 2, 97, 0] (.struct 0) =
      .ok (Schema.parcelItem "a" (.defaulted (.int .u8 ⟨1, by decide⟩))) := by rfl
  refine ⟨hplace, fun v hlonger => ?_, hitem, hfront, ?_⟩
  · have heq := (decode_self_delimiting Schema.resolve_parcels hplace).1 nofun _ v hlonger
      (.inr ⟨[0], rfl⟩)
    cases heq
  · exact (decode_self_delimiting Schema.resolve_parcels hitem).2 0 rfl _ _ hfront ⟨[130, 5], rfl⟩

end Codec

end SchemaRpc
