/-
# Decoding scalars

The decoder's operations on primitive values and values of enums accept exactly the bytes of
such values.  First the wrappers that turn a reading operation into a decoding operation: they
change errors only, so what is accepted stays the same.
-/
import SchemaRpc.Proofs.Codec.Payload
import SchemaRpc.Proofs.Utf8

namespace SchemaRpc

namespace Codec

open Wire

/-! ## Reading operations within decoding -/

section

variable (s : Schema) (type : TypeRef)

lemma framed_eq_ok_iff {α : Type} {read : Reading α} {r after : Reader} {a : α} :
    framed s type read r = .ok a after ↔ read r = .ok a after := by
  unfold framed
  cases read r <;> simp

lemma parses_framed {α : Type} {read : Reading α} {P : Bytes → α → Prop} (h : Parses read P) :
    Parses (framed s type read) P := by
  intro r a after
  rw [framed_eq_ok_iff, h r a after]

lemma parses_malformed {α : Type} (offset : Nat) (reason : Malformation) :
    Parses (malformed s type offset reason : Decoding α) fun _ _ => False := Parses.throw _

lemma parses_passOver (limit budget : Nat) (kind : Kind) :
    Parses (passOver s limit budget type kind) fun bytes _ => Skips budget kind bytes := by
  intro r a after
  rw [← Reader.parses_skip budget kind r a after]
  unfold passOver
  cases Reader.skip budget kind r with
  | ok a' after' => simp
  | error e after' => cases e <;> simp

lemma within_eq_ok_iff {α : Type} {block r after : Reader} {op : Decoding α} {a : α} :
    within block op r = .ok a after ↔ after = r ∧ ∃ stop, op block = .ok a stop := by
  unfold within
  cases op block with
  | ok a' stop =>
    constructor
    · rintro ⟨⟩
      exact ⟨rfl, stop, rfl⟩
    · rintro ⟨rfl, stop', ⟨⟩⟩
      rfl
  | error e stop => simp

end

/-! ## Scalars -/

lemma parses_readRanged (k : IntKind) (kind : Kind) :
    Parses (readRanged k kind) fun bytes n =>
      kind.intWidth? = some bytes.length ∧ n = readingOf k kind bytes := by
  unfold readRanged readingOf
  by_cases h : k = .u64 ∧ kind = .quad
  · obtain ⟨rfl, rfl⟩ := h
    simp only [and_self, if_true]
    refine ((Reader.parses_readQuad .quad).bind_of_nil fun bits => .pure _).congr fun bytes n => ?_
    have hvalue (hlen : bytes.length = 8) :
        (UInt64.ofNat (Bytes.toNat bytes)).toNat = Bytes.toNat bytes := by
      have hlt := Bytes.toNat_lt_span bytes
      rw [hlen] at hlt
      rw [UInt64.toNat_ofNat']
      exact Nat.mod_eq_of_lt hlt
    constructor
    · rintro ⟨_, ⟨-, hlen, rfl⟩, rfl⟩
      exact ⟨by rw [hlen]; rfl, by rw [hvalue hlen]⟩
    · rintro ⟨hw, rfl⟩
      have hlen : bytes.length = 8 := (Option.some.inj hw).symm
      exact ⟨_, ⟨rfl, hlen, rfl⟩, by rw [hvalue hlen]⟩
  · simp only [if_neg h]
    exact Reader.parses_readInt kind

/-! ## Checks of what was read -/

/-- The number that was read, if it is one of the type. -/
def checkedInt (s : Schema) (k : IntKind) (offset : Nat) (n : Int) : Decoding Value :=
  match k.ofInt? n with
  | some n => pure (.int k n)
  | none => malformed s (.prim (.int k)) offset (.outOfRange n k)

/-- The text that was read, if it is one. -/
def checkedText (s : Schema) (offset : Nat) (data : Bytes) : Decoding Value :=
  match Utf8.decode data with
  | .ok text => pure (.string text)
  | .error fault => malformed s (.prim .string) offset (.notUtf8 fault)

/-- The label that was read, if the enum has it. -/
def checkedLabel (e : Schema.EnumType) (offset : Nat) (n : Int) : Decoding Value :=
  match IntKind.i32.ofInt? n with
  | some value =>
    if e.contains value then pure (.enum value) else throw (.unknownEnumValue e.name n offset)
  | none => throw (.unknownEnumValue e.name n offset)

lemma parses_checkedInt (s : Schema) (k : IntKind) (offset : Nat) (n : Int) :
    Parses (checkedInt s k offset n) fun bytes v =>
      bytes = [] ∧ ∃ m : k.Ranged, n = m.val ∧ v = .int k m := by
  unfold checkedInt
  cases hn : k.ofInt? n with
  | some m =>
    obtain rfl := IntKind.ofInt?_eq_some_iff.mp hn
    refine (Parses.pure _).congr fun bytes v => ?_
    refine and_congr_right fun _ => ⟨fun h => ⟨m, rfl, h⟩, ?_⟩
    rintro ⟨m', hm, rfl⟩
    rw [IntKind.Ranged.ext hm]
  | none =>
    have hout := IntKind.ofInt?_eq_none_iff.mp hn
    refine (parses_malformed _ _ _ _).congr fun bytes v => ⟨False.elim, ?_⟩
    rintro ⟨-, m, rfl, -⟩
    exact hout m.holds

lemma parses_checkedText (s : Schema) (offset : Nat) (data : Bytes) :
    Parses (checkedText s offset data) fun bytes v =>
      bytes = [] ∧ ∃ text, data = Utf8.encode text ∧ v = .string text := by
  unfold checkedText
  cases hdata : Utf8.decode data with
  | ok text =>
    obtain rfl := Utf8.decode_eq_ok_iff.mp hdata
    refine (Parses.pure _).congr fun bytes v => ?_
    refine and_congr_right fun _ => ⟨fun h => ⟨text, rfl, h⟩, ?_⟩
    rintro ⟨text', htext, rfl⟩
    rw [Utf8.decode_eq_ok_iff.mpr htext] at hdata
    rw [Except.ok.inj hdata]
  | error fault =>
    refine (parses_malformed _ _ _ _).congr fun bytes v => ⟨False.elim, ?_⟩
    rintro ⟨-, text, rfl, -⟩
    rw [Utf8.decode_eq_ok_iff.mpr rfl] at hdata
    cases hdata

lemma parses_checkedLabel (e : Schema.EnumType) (offset : Nat) (n : Int) :
    Parses (checkedLabel e offset n) fun bytes v =>
      bytes = [] ∧ ∃ m : IntKind.i32.Ranged, n = m.val ∧ e.contains m ∧ v = .enum m := by
  unfold checkedLabel
  cases hn : IntKind.i32.ofInt? n with
  | some m =>
    obtain rfl := IntKind.ofInt?_eq_some_iff.mp hn
    refine (Parses.ite (.pure _) (.throw _)).congr fun bytes v => ?_
    constructor
    · intro h
      by_cases hc : e.contains m = true
      · rw [if_pos hc] at h
        exact ⟨h.1, m, rfl, hc, h.2⟩
      · rw [if_neg hc] at h
        exact h.elim
    · rintro ⟨rfl, m', hm, hc, rfl⟩
      obtain rfl := IntKind.Ranged.ext hm
      rw [if_pos hc]
      exact ⟨rfl, rfl⟩
  | none =>
    have hout := IntKind.ofInt?_eq_none_iff.mp hn
    refine (Parses.throw _).congr fun bytes v => ⟨False.elim, ?_⟩
    rintro ⟨-, m, rfl, -⟩
    exact hout m.holds

/-! ## Scalars -/

lemma parses_decodePrimitive (s : Schema) (p : Primitive) (kind : Kind) :
    Parses (decodePrimitive s p kind) (IsScalar p kind) := by
  cases p with
  | bool =>
    have hcheck (offset : Nat) (n : Int) : Parses (if n = 0 then pure (.bool false)
        else if n = 1 then pure (.bool true)
        else malformed s (.prim .bool) offset (.notBool n) : Decoding Value) fun bytes v =>
          bytes = [] ∧ ∃ b : Bool, n = (if b then 1 else 0) ∧ v = .bool b := by
      refine (Parses.ite (.pure _) (.ite (.pure _) (parses_malformed _ _ _ _))).congr
        fun bytes v => ?_
      by_cases h0 : n = 0
      · simp [h0]
      · by_cases h1 : n = 1
        · simp [h1]
        · simp [h0, h1]
    refine (Parses.get_bind fun start => (parses_framed s _ (Reader.parses_readInt kind)
      ).bind_of_nil (hcheck start.offset)).congr fun bytes v => ?_
    constructor
    · rintro ⟨_, ⟨hw, rfl⟩, b, hn, rfl⟩
      exact .bool hw hn
    · intro h
      cases h with
      | bool hw hn => exact ⟨_, ⟨hw, rfl⟩, _, hn, rfl⟩
  | int k =>
    refine (Parses.get_bind fun start => (parses_framed s _ (parses_readRanged k kind)
      ).bind_of_nil (parses_checkedInt s k start.offset)).congr fun bytes v => ?_
    constructor
    · rintro ⟨_, ⟨hw, rfl⟩, m, hn, rfl⟩
      exact .int hw hn.symm
    · intro h
      cases h with
      | int hw hn => exact ⟨_, ⟨hw, rfl⟩, _, hn.symm, rfl⟩
  | f32 =>
    refine (Parses.get_bind fun start => (parses_framed s (.prim .f32)
      (Reader.parses_readFloat32 kind)).bind_of_nil fun x => .pure (Value.f32 x)).congr
      fun bytes v => ?_
    constructor
    · rintro ⟨_, ⟨rfl, hl, rfl⟩, rfl⟩
      exact .f32 hl
    · intro h
      cases h with
      | f32 hl => exact ⟨_, ⟨rfl, hl, rfl⟩, rfl⟩
  | f64 =>
    refine (Parses.get_bind fun start => (parses_framed s (.prim .f64)
      (Reader.parses_readFloat64 kind)).bind_of_nil fun x => .pure (Value.f64 x)).congr
      fun bytes v => ?_
    constructor
    · rintro ⟨_, ⟨rfl, hl, rfl⟩, rfl⟩
      exact .f64 hl
    · intro h
      cases h with
      | f64 hl => exact ⟨_, ⟨rfl, hl, rfl⟩, rfl⟩
  | string =>
    refine (Parses.get_bind fun start => (parses_framed s _ (Reader.parses_readBytes kind)
      ).bind_of_nil (parses_checkedText s start.offset)).congr fun bytes v => ?_
    constructor
    · rintro ⟨_, hb, text, rfl, rfl⟩
      exact .string hb
    · intro h
      cases h with
      | string hb => exact ⟨_, hb, _, rfl, rfl⟩
  | bytes =>
    refine (Parses.get_bind fun start => (parses_framed s (.prim .bytes)
      (Reader.parses_readBytes kind)).bind_of_nil fun data => .pure (Value.bytes data)).congr
      fun bytes v => ?_
    constructor
    · rintro ⟨_, hb, rfl⟩
      exact .bytes hb
    · intro h
      cases h with
      | bytes hb => exact ⟨_, hb, rfl⟩

lemma parses_decodeEnum (s : Schema) (id : Nat) (kind : Kind) :
    Parses (decodeEnum s id kind) (IsLabel (s.enumType id) kind) := by
  refine (Parses.get_bind fun start => (parses_framed s _ (Reader.parses_readInt kind)
    ).bind_of_nil (parses_checkedLabel _ start.offset)).congr fun bytes v => ?_
  constructor
  · rintro ⟨_, ⟨hw, rfl⟩, m, hn, hc, rfl⟩
    exact .mk hw hn.symm hc
  · intro h
    cases h with
    | mk hw hn hc => exact ⟨_, ⟨hw, rfl⟩, _, hn.symm, hc, rfl⟩

end Codec

end SchemaRpc
