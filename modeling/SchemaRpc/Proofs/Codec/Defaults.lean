/-
# Defaults can be sent

Where a field was not sent, a reader fills in the default of the schema.  A literal becomes a value
of exactly the type of its field, so the default is itself a value that can be sent; and as a field
may be sent instead of being left to its default, every reader can spell out the defaults that it
was given and pass the value on.

* `SpellsOut` relates a value to those that send some of the fields that it leaves to their defaults,
* `Conforms.of_spellsOut` says that spelling out keeps the shape of a value,
* `defaults_roundTrip` draws from it that defaults are read back, alone and in their places.
-/
import SchemaRpc.Proofs.Codec.Acceptance
import SchemaRpc.Proofs.Codec.Forwarding
import SchemaRpc.Proofs.Schema.WellFormed

namespace SchemaRpc

/-- The second state is the first one, or sends the default that the first one left unsent.  Values
that are sent on both sides may differ. -/
inductive FieldState.SpellsOut : FieldState → FieldState → Prop where
  | present (x y : Value) : SpellsOut (.present x) (.present y)
  | null : SpellsOut .null .null
  | absent : SpellsOut .absent .absent
  | kept (d : Value) : SpellsOut (.defaulted d) (.defaulted d)
  | sent (d : Value) : SpellsOut (.defaulted d) (.present d)

/-- The second value is the first one with any of the defaulted fields sent, at any depth. -/
inductive Value.SpellsOut : Value → Value → Prop where
  | refl (v : Value) : SpellsOut v v
  | union {active : Tag} {x y : Value} (h : SpellsOut x y) :
    SpellsOut (.union active x) (.union active y)
  | struct {r r' : Record} (hstates : ∀ t, (r.get t).SpellsOut (r'.get t))
    (h : ∀ t x y, r.get t = .present x → r'.get t = .present y → SpellsOut x y) :
    SpellsOut (.struct r) (.struct r')
  | array {items items' : List Value} (hlength : items'.length = items.length)
    (h : ∀ (k : Nat) (x y : Value), items[k]? = some x → items'[k]? = some y → SpellsOut x y) :
    SpellsOut (.array items) (.array items')

lemma FieldState.SpellsOut.refl (state : FieldState) : state.SpellsOut state := by
  cases state with
  | present x => exact .present x x
  | null => exact .null
  | defaulted d => exact .kept d
  | absent => exact .absent

/-- One more field can be set on both sides. -/
lemma Value.SpellsOut.set {r r' : Record} (h : SpellsOut (.struct r) (.struct r')) (t : Tag)
    {state state' : FieldState} (hstate : state.SpellsOut state')
    (hsent : ∀ x y, state = .present x → state' = .present y → SpellsOut x y) :
    SpellsOut (.struct (r.set t state)) (.struct (r'.set t state')) := by
  have hboth : (∀ t, (r.get t).SpellsOut (r'.get t)) ∧
      ∀ t x y, r.get t = .present x → r'.get t = .present y → SpellsOut x y := by
    cases h with
    | refl =>
      refine ⟨fun t => .refl _, fun t x y hx hy => ?_⟩
      obtain rfl := FieldState.present.inj (hx.symm.trans hy)
      exact .refl _
    | struct hstates h => exact ⟨hstates, h⟩
  refine .struct (fun t' => ?_) fun t' x y hx hy => ?_
  · rw [Record.get_set, Record.get_set]
    split
    · exact hstate
    · exact hboth.1 t'
  · rw [Record.get_set] at hx hy
    by_cases heq : t' = t
    · rw [if_pos heq] at hx hy
      exact hsent x y hx hy
    · rw [if_neg heq] at hx hy
      exact hboth.2 t' x y hx hy

namespace Schema

variable {s : Schema}

lemma DefaultsConform.structType (h : s.DefaultsConform) {id : Nat} {f : Field}
    (hf : f ∈ (s.structType id).fields) {d : Value} (hd : f.default = some d) :
    Codec.Conforms s f.type d := by
  rw [Schema.structType] at hf
  cases hstruct : s.structs[id]? with
  | none =>
    rw [hstruct] at hf
    cases hf
  | some struct =>
    rw [hstruct] at hf
    exact h struct (List.mem_of_getElem? hstruct) f hf d hd

end Schema

namespace Codec

variable {s : Schema} {type : TypeRef} {v v' : Value}

/-! ## Shapes -/

/-- What conforms can be encoded as far as its lengths allow. -/
lemma Conforms.encodable (hs : s.Ascends) (h : Conforms s type v) : Encodable s type v := by
  induction h with
  | bool | int | f32 | f64 | string | bytes => constructor
  | enum hc => exact .enum hc
  | union hv htag h ih =>
    subst htag
    exact .union ((hs.unionType _).variantByTag?_tag hv) ih
  | struct hdeclared hallowed h ih =>
    exact .struct ((Conforms.struct hdeclared hallowed h).sendable (hs.structType _)) ih
  | array h ih => exact .array ih

/-- A default may be sent instead of being left out. -/
lemma allows_of_spellsOut {f : Schema.Field} {state state' : FieldState} (h : f.Allows state)
    (hspells : state.SpellsOut state') : f.Allows state' := by
  cases hspells with
  | present x y => exact .present y
  | null | absent | kept => exact h
  | sent d => exact .present d

/-- Spelling out defaults keeps the shape of a value. -/
lemma Conforms.of_spellsOut (hdefaults : s.DefaultsConform) (h : Conforms s type v)
    (hspells : v.SpellsOut v') : Conforms s type v' := by
  induction hspells generalizing type with
  | refl v => exact h
  | union hspells ih =>
    cases h with
    | union hv htag h => exact .union hv htag (ih h)
  | @struct r r' hstates hspells ih =>
    cases h with
    | @struct id _ hdeclared hallowed h =>
      refine .struct (fun t ht => ?_) (fun f hf => ?_) fun f hf y hy => ?_
      · -- what is stored after spelling out was stored before
        refine hdeclared t ((Record.mem_tags_iff r t).mpr fun habsent => ?_)
        have hstate := hstates t
        rw [habsent] at hstate
        generalize hstate' : r'.get t = state' at hstate
        cases hstate
        exact (Record.mem_tags_iff r' t).mp ht hstate'
      · exact allows_of_spellsOut (hallowed f hf) (hstates f.tag)
      · have hstate := hstates f.tag
        rw [hy] at hstate
        cases hx : r.get f.tag with
        | present x => exact ih f.tag x y hx hy (h f hf x hx)
        | defaulted d =>
          rw [hx] at hstate
          cases hstate
          have hallows := hallowed f hf
          rw [hx] at hallows
          cases hallows with
          | defaulted hd => exact hdefaults.structType hf hd
        | null | absent =>
          rw [hx] at hstate
          cases hstate
  | @array items items' hlength hspells ih =>
    cases h with
    | array h =>
      refine .array fun y hy => ?_
      obtain ⟨k, hk⟩ := List.mem_iff_getElem?.mp hy
      have hlt : k < items.length := hlength ▸ (List.getElem?_eq_some_iff.mp hk).1
      have hx : items[k]? = some items[k] := List.getElem?_eq_getElem hlt
      exact ih k _ y hx hk (h _ (List.mem_of_getElem? hx))

/-! ## Sent and read back -/

/-- The value is encoded, and read back from its bytes within all limits that leave room for them
and for its nesting. -/
def RoundTrips (s : Schema) (type : TypeRef) (v : Value) : Prop :=
  ∃ bytes, encode s v type = .ok bytes ∧
    ∀ limits : Limits, bytes.length ≤ limits.maxPayload → v.nestingAt type ≤ limits.maxDepth →
      decode s limits bytes type = .ok v

/-- A value that conforms and whose lengths fit is read back as it is. -/
lemma Conforms.roundTrips (hs : s.Ascends) (h : Conforms s type v) (hfit : LengthsFit s type v) :
    RoundTrips s type v := by
  have hencodable := h.encodable hs
  obtain ⟨bytes, hwritten⟩ := hencodable.exists_writesPayload hs hfit
  refine ⟨bytes, (encode_eq_ok_iff hs).mpr hwritten, fun limits hlen hdepth => ?_⟩
  have hread := hwritten.isPayload_normalise hs hdepth
  rw [hencodable.normalise_eq_self hs (h.settled hs)] at hread
  exact (decode_eq_ok_iff hs).mpr ⟨hlen, hread⟩

/-- **Defaults can be sent.**  The default of a field is encoded at the type of the field and read
back, bit for bit; and in a value that was decoded, any of the fields that were left to their
defaults can be sent instead, and the value is encoded and read back with them. -/
theorem defaults_roundTrip {p : Package} (hp : Schema.resolve p = .ok s) :
    (∀ struct ∈ s.structs, ∀ f ∈ struct.fields, ∀ d, f.default = some d →
      LengthsFit s f.type d → RoundTrips s f.type d) ∧
    ∀ (limits : Limits) (payload : Bytes) (type : TypeRef) (v : Value),
      decode s limits payload type = .ok v →
        ∀ v', v.SpellsOut v' → LengthsFit s type v' → RoundTrips s type v' := by
  have hs := Schema.ascends_of_resolve hp
  have hdefaults := Schema.defaultsConform_of_resolve hp
  refine ⟨fun struct hstruct f hf d hd hfit => ?_,
    fun limits payload type v hdecode v' hspells hfit => ?_⟩
  · exact (hdefaults struct hstruct f hf d hd).roundTrips hs hfit
  · have hconforms := ((decode_eq_ok_iff hs).mp hdecode).2.conforms hs
    exact (hconforms.of_spellsOut hdefaults hspells).roundTrips hs hfit

lemma spellsOut_countedParcel :
    (Schema.countedParcel (.defaulted (.int .u8 ⟨1, by decide⟩))).SpellsOut
      (Schema.countedParcel (.present (.int .u8 ⟨1, by decide⟩))) := by
  have hitem : (Schema.parcelItem "a" (.defaulted (.int .u8 ⟨1, by decide⟩))).SpellsOut
      (Schema.parcelItem "a" (.present (.int .u8 ⟨1, by decide⟩))) :=
    Value.SpellsOut.set (.refl (.struct _)) (.ofNat 2) (.sent _) nofun
  refine Value.SpellsOut.set (Value.SpellsOut.set (.refl (.struct _)) (.ofNat 2) (.present _ _) ?_)
    (.ofNat 5) (.present _ _) ?_
  · rintro x y ⟨⟩ ⟨⟩
    exact .union hitem
  · rintro x y ⟨⟩ ⟨⟩
    exact .refl _

/-- The count of an item is read back by itself, and from its place in a parcel if it is sent
there. -/
theorem defaults_roundTrip_parcel :
    Schema.resolve Schema.parcels = .ok Schema.parcelsSchema ∧
    RoundTrips Schema.parcelsSchema (.prim (.int .u8)) (.int .u8 ⟨1, by decide⟩) ∧
    (∃ bytes, decode Schema.parcelsSchema .default bytes (.struct 1) =
      .ok (Schema.countedParcel (.defaulted (.int .u8 ⟨1, by decide⟩)))) ∧
    RoundTrips Schema.parcelsSchema (.struct 1)
      (Schema.countedParcel (.present (.int .u8 ⟨1, by decide⟩))) := by
  have hs := Schema.ascends_of_resolve Schema.resolve_parcels
  have hdecode : decode Schema.parcelsSchema .default parcelBytes (.struct 1) =
      .ok (Schema.countedParcel (.defaulted (.int .u8 ⟨1, by decide⟩))) := by rfl
  have hcount : LengthsFit Schema.parcelsSchema (.prim (.int .u8)) (.int .u8 ⟨1, by decide⟩) :=
    WritesPayload.lengthsFit hs ((encode_eq_ok_iff hs).mp rfl)
  have hfit : LengthsFit Schema.parcelsSchema (.struct 1)
      (Schema.countedParcel (.present (.int .u8 ⟨1, by decide⟩))) :=
    WritesPayload.lengthsFit hs ((encode_eq_ok_iff hs).mp rfl)
  obtain ⟨hdefaults, hspelled⟩ := defaults_roundTrip Schema.resolve_parcels
  exact ⟨Schema.resolve_parcels,
    hdefaults _ (.head _) _ (.tail _ (.head _)) _ rfl hcount,
    ⟨parcelBytes, hdecode⟩,
    hspelled _ _ _ _ hdecode _ spellsOut_countedParcel hfit⟩

end Codec

end SchemaRpc
