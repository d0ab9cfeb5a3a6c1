/-
# What encoding writes

`Writes s type value p` says that the value is written at the type as the member `p`, apart from
the tag.  The relation has one rule for each shape of value, and the rules for structs, unions
and arrays start from the members of the parts; so whatever is to be shown of written values is
shown by induction on it, without another look at the encoder:

* `Writing.Yields`: what is written does not depend on where it stands, only errors do,
* `encodes`: encoding a member succeeds exactly when it is written,
* `encode_eq_ok_iff`: the same for a value that stands by itself.
-/
import SchemaRpc.Codec.Encode
import SchemaRpc.Proofs.Codec.Payload
import SchemaRpc.Proofs.Outcome
import SchemaRpc.Proofs.Schema.Resolution
import SchemaRpc.Proofs.Value.Induction
import SchemaRpc.Proofs.Wire.Pieces

namespace SchemaRpc

namespace Schema

/-- The states of the fields of a record are such that a struct can send them. -/
structure StructType.Sendable (struct : StructType) (r : Record) : Prop where
  declared : ∀ t ∈ r.tags, (struct.fieldByTag? t).isSome
  null : ∀ f ∈ struct.fields, r.get f.tag = .null → f.optional
  mandatory : struct.Suffices r

end Schema

namespace Codec

open Wire

/-- The bytes that a field sends, given the member of its value. -/
def sentBytes (f : Schema.Field) (part : Piece) : FieldState → Bytes
  | .present _ => part.bytes f.tag
  | .null => writeNull f.tag
  | .defaulted _ | .absent => []

/-- The members of a record, given those of its values. -/
def recordBytes (struct : Schema.StructType) (part : Schema.Field → Piece) (r : Record) : Bytes :=
  struct.fields.flatMap fun f => sentBytes f (part f) (r.get f.tag)

/-- A value is written at a type as a member. -/
inductive Writes (s : Schema) : TypeRef → Value → Piece → Prop where
  | bool (b : Bool) : Writes s (.prim .bool) (.bool b) (intPiece (if b then 1 else 0))
  | int (k : IntKind) (n : k.Ranged) : Writes s (.prim (.int k)) (.int k n) (intPiece n.val)
  | f32 (x : Binary32) : Writes s (.prim .f32) (.f32 x) ⟨.int4, Bytes.ofNat 4 x.bits.toNat⟩
  | f64 (x : Binary64) : Writes s (.prim .f64) (.f64 x) ⟨.quad, Bytes.ofNat 8 x.bits.toNat⟩
  | string {text : String} (hlen : (Utf8.encode text ++ [0]).length < lengthLimit) :
    Writes s (.prim .string) (.string text) (leastBlock (Utf8.encode text ++ [0]))
  | bytes {data : Bytes} (hlen : (data ++ [0]).length < lengthLimit) :
    Writes s (.prim .bytes) (.bytes data) (leastBlock (data ++ [0]))
  | enum {id : Nat} {n : IntKind.i32.Ranged} (hc : (s.enumType id).contains n) :
    Writes s (.enum id) (.enum n) (intPiece n.val)
  | union {id : Nat} {active : Tag} {payload : Value} {v : Schema.Variant} {part : Piece}
    (hv : (s.unionType id).variantByTag? active = some v) (h : Writes s v.type payload part)
    (hlen : (part.bytes active).length < lengthLimit) :
    Writes s (.union id) (.union active payload) (wideBlock (part.bytes active))
  | struct {id : Nat} {r : Record} {part : Schema.Field → Piece}
    (hr : (s.structType id).Sendable r)
    (h : ∀ f ∈ (s.structType id).fields, ∀ x, r.get f.tag = .present x →
      Writes s f.type x (part f))
    (hlen : (recordBytes (s.structType id) part r).length < lengthLimit) :
    Writes s (.struct id) (.struct r) (wideBlock (recordBytes (s.structType id) part r))
  | array {item : TypeRef} {items : List Value} {part : Value → Piece}
    (hcount : items.length < lengthLimit) (h : ∀ x ∈ items, Writes s item x (part x)) :
    Writes s (.array item) (.array items)
      ⟨.repeated, Bytes.ofNat 4 items.length ++ items.flatMap fun x => (part x).bytes .zero⟩

/-- A value that stands by itself is written at a type as a payload. -/
inductive WritesPayload (s : Schema) : TypeRef → Value → Bytes → Prop where
  | struct {id : Nat} {r : Record} {part : Schema.Field → Piece}
    (hr : (s.structType id).Sendable r)
    (h : ∀ f ∈ (s.structType id).fields, ∀ x, r.get f.tag = .present x →
      Writes s f.type x (part f)) :
    WritesPayload s (.struct id) (.struct r) (recordBytes (s.structType id) part r)
  | union {id : Nat} {active : Tag} {payload : Value} {v : Schema.Variant} {part : Piece}
    (hv : (s.unionType id).variantByTag? active = some v) (h : Writes s v.type payload part) :
    WritesPayload s (.union id) (.union active payload) (part.bytes active)
  | member {type : TypeRef} {v : Value} {part : Piece} (hstruct : ∀ id, type ≠ .struct id)
    (hunion : ∀ id, type ≠ .union id) (h : Writes s type v part) :
    WritesPayload s type v (part.bytes .zero)

/-! ## Where something stands -/

/-- Wherever it stands, exactly the bytes with the property are written, if any are. -/
def Writing.Yields (writing : Writing) (P : Bytes → Prop) : Prop :=
  ∀ before bytes, writing before = .ok bytes ↔ P bytes

section

variable {s : Schema} {type : TypeRef} {P Q : Bytes → Prop} {first second writing : Writing}

lemma Writing.Yields.congr (h : writing.Yields P) (hPQ : ∀ bytes, P bytes ↔ Q bytes) :
    writing.Yields Q :=
  fun before bytes => (h before bytes).trans (hPQ bytes)

/-- What is written in one place is written in all. -/
lemma Writing.Yields.eq_ok_of_eq_ok (h : writing.Yields P) {before : Nat} {bytes : Bytes}
    (hbytes : writing before = .ok bytes) (before' : Nat) : writing before' = .ok bytes :=
  (h before' bytes).mpr ((h before bytes).mp hbytes)

lemma Writing.yields_fixed (written : Encoded) :
    (Writing.fixed written).Yields fun bytes => written = .ok bytes :=
  fun _ _ => Iff.rfl

lemma Writing.Yields.andThen (h : first.Yields P) (h' : second.Yields Q) :
    (first.andThen second).Yields fun bytes =>
      ∃ front, P front ∧ ∃ rest, Q rest ∧ front ++ rest = bytes := by
  intro before bytes
  simp only [Writing.andThen, Outcome.bind_eq_ok_iff, Outcome.map_eq_ok_iff, h _ _, h' _ _]

lemma orTooLarge_eq_ok_iff {length : Nat} {written : Option Bytes} {bytes : Bytes} :
    orTooLarge s type length written = .ok bytes ↔ written = some bytes := by
  cases written <;> simp [orTooLarge]

lemma Writing.Yields.block (h : writing.Yields P) (tag : Tag) :
    (block s type tag writing).Yields fun bytes =>
      ∃ body, P body ∧ body.length < lengthLimit ∧ bytes = (wideBlock body).bytes tag := by
  intro before bytes
  simp only [Codec.block, Outcome.bind_eq_ok_iff, orTooLarge_eq_ok_iff, writeBlock?_eq_some_iff,
    h _ _]

end

/-! ## One written form after the other -/

/-- The written forms of a list, or the error of the first one that has none. -/
def joined {α : Type} (write : α → Writing) : List α → Writing
  | [] => .fixed (.ok [])
  | a :: more => (write a).andThen (joined write more)

/-- A list is written as the parts of its members, each of which may be chosen for the member. -/
lemma yields_joined {α : Type} {write : α → Writing} {P : α → Bytes → Prop} {l : List α}
    (h : ∀ a ∈ l, (write a).Yields (P a)) :
    (joined write l).Yields fun bytes =>
      ∃ part : α → Bytes, (∀ a ∈ l, P a (part a)) ∧ bytes = l.flatMap part := by
  intro before bytes
  constructor
  · intro hbytes
    -- the parts outside of the list do not matter, nor does the place of those in it
    refine ⟨fun a => (write a 0).toOption.getD [], ?_⟩
    induction l generalizing before bytes with
    | nil =>
      cases hbytes
      exact ⟨List.forall_mem_nil _, rfl⟩
    | cons a l ih =>
      rw [List.forall_mem_cons] at h
      obtain ⟨first, hfirst, hsecond⟩ := Outcome.bind_eq_ok_iff.mp hbytes
      obtain ⟨rest, hrest, rfl⟩ := Outcome.map_eq_ok_iff.mp hsecond
      obtain ⟨hmore, rfl⟩ := ih h.2 _ _ hrest
      have hpart : (write a 0).toOption.getD [] = first := by
        rw [h.1.eq_ok_of_eq_ok hfirst 0]
        rfl
      rw [List.forall_mem_cons, List.flatMap_cons, hpart]
      refine ⟨⟨?_, hmore⟩, rfl⟩
      dsimp only
      rw [hpart]
      exact (h.1 _ _).mp hfirst
  · rintro ⟨part, hpart, rfl⟩
    induction l generalizing before with
    | nil => rfl
    | cons a l ih =>
      rw [List.forall_mem_cons] at h hpart
      rw [List.flatMap_cons]
      exact Outcome.bind_eq_ok_iff.mpr ⟨_, (h.1 _ _).mpr hpart.1,
        Outcome.map_eq_ok_iff.mpr ⟨_, ih h.2 _ hpart.2, rfl⟩⟩

lemma fixed_nil_andThen (writing : Writing) :
    (Writing.fixed (.ok [])).andThen writing = writing := by
  funext before
  show (writing before).map ([] ++ ·) = writing before
  cases writing before <;> rfl

lemma encodeItems_eq_joined (s : Schema) (item : TypeRef) (items : List Value) :
    encodeItems s item items = joined (encodeMember s .zero item) items := by
  induction items with
  | nil => rw [encodeItems, joined]
  | cons v items ih => rw [encodeItems, joined, ih]

/-! ## Records -/

section

variable (s : Schema) (struct : Schema.StructType)

lemma map_fst_encodeSlots {floor : Option Tag} (slots : Slots floor) :
    (encodeSlots s struct slots).map (·.1) = slots.keys := by
  induction slots with
  | nil =>
    rw [encodeSlots]
    rfl
  | cons tag above slot more ih =>
    rw [encodeSlots, List.map_cons, ih]
    rfl

lemma lookup_encodeSlots (t : Tag) {floor : Option Tag} (slots : Slots floor) :
    (encodeSlots s struct slots).lookup t =
      (slots.find? t).map (encodeSlot s t ((struct.fieldByTag? t).map (·.type))) := by
  induction slots with
  | nil =>
    rw [encodeSlots]
    rfl
  | cons tag above slot more ih =>
    rw [encodeSlots, List.lookup_cons, Ascending.find?_cons]
    by_cases h : t = tag
    · subst h
      rw [beq_self_eq_true, if_pos rfl]
      rfl
    · have hne : (t == tag) = false := by simpa using h
      rw [hne, if_neg h]
      exact ih

/-- The member of one field of a record, or why it has none. -/
def encodeState (f : Schema.Field) : FieldState → Writing
  | .present value => encodeMember s f.tag f.type value
  | .null =>
    if f.optional then .fixed (.ok (writeNull f.tag))
    else .fixed (.error (.nullNotAllowed struct.name f.name f.tag))
  | .defaulted _ | .absent =>
    if f.isMandatory then .fixed (.error (.missingField struct.name f.name f.tag))
    else .fixed (.ok [])

variable {struct}

lemma fixed_error_andThen (e : EncodeError) (writing : Writing) :
    (Writing.fixed (.error e)).andThen writing = .fixed (.error e) := rfl

lemma assemble_eq_joined (hascends : struct.Ascends) (r : Record) {fields : List Schema.Field}
    (hfields : ∀ f ∈ fields, f ∈ struct.fields) :
    assemble struct (encodeSlots s struct r) fields =
      joined (fun f => encodeState s struct f (r.get f.tag)) fields := by
  induction fields with
  | nil => rfl
  | cons f more ih =>
    rw [List.forall_mem_cons] at hfields
    have hf := hascends.fieldByTag?_tag hfields.1
    have hlookup := lookup_encodeSlots s struct f.tag r
    rw [hf] at hlookup
    rw [assemble, joined, ih hfields.2, hlookup]
    generalize joined (fun f => encodeState s struct f (r.get f.tag)) more = rest
    rw [Record.get]
    rcases r.find? f.tag with _ | value | _ | d
    · by_cases hm : f.isMandatory
      · simp [hm, FieldState.ofSlot, encodeState, fixed_error_andThen]
      · simp only [Option.map_none, FieldState.ofSlot, encodeState, if_neg hm, fixed_nil_andThen]
    · rfl
    · by_cases ho : f.optional
      · simp [ho, FieldState.ofSlot, encodeState, encodeSlot]
      · simp [ho, FieldState.ofSlot, encodeState, encodeSlot, fixed_error_andThen]
    · by_cases hm : f.isMandatory
      · simp [hm, FieldState.ofSlot, encodeState, encodeSlot, fixed_error_andThen]
      · simp only [Option.map_some, encodeSlot, FieldState.ofSlot, encodeState, if_neg hm,
          fixed_nil_andThen]

/-- No field of a record is unknown to a struct just if the struct has them all. -/
lemma find?_undeclared_eq_none_iff (r : Record) :
    ((encodeSlots s struct r).find? fun c => (struct.fieldByTag? c.1).isNone) = none ↔
      ∀ t ∈ r.tags, (struct.fieldByTag? t).isSome := by
  rw [Record.tags, ← map_fst_encodeSlots s struct r, List.find?_eq_none]
  simp [Option.isSome_iff_ne_none]

lemma yields_recordBody {id : Nat} (hascends : (s.structType id).Ascends) {r : Record}
    {P : Schema.Field → Bytes → Prop}
    (h : ∀ f ∈ (s.structType id).fields,
      (encodeState s (s.structType id) f (r.get f.tag)).Yields (P f)) :
    (recordBody s id r).Yields fun bytes =>
      (∀ t ∈ r.tags, ((s.structType id).fieldByTag? t).isSome) ∧
        ∃ part : Schema.Field → Bytes, (∀ f ∈ (s.structType id).fields, P f (part f)) ∧
          bytes = (s.structType id).fields.flatMap part := by
  intro before bytes
  rw [← find?_undeclared_eq_none_iff s r, recordBody, structBody,
    assemble_eq_joined s hascends r fun f hf => hf]
  cases (encodeSlots s (s.structType id) r).find? fun c =>
      ((s.structType id).fieldByTag? c.1).isNone with
  | none => exact (yields_joined h before bytes).trans (and_iff_right rfl).symm
  | some c => simp [Writing.fixed]

end

/-! ## Members -/

/-- A nested union is its active member behind a length. -/
lemma encodeMember_union (s : Schema) (tag : Tag) (id : Nat) (active : Tag) (payload : Value) :
    encodeMember s tag (.union id) (.union active payload) =
      block s (.union id) tag (unionBody s id active payload) := by
  funext before
  rw [encodeMember, unionBody]
  split <;> rfl

/-- A nested struct is its members behind a length. -/
lemma encodeMember_struct (s : Schema) (tag : Tag) (id : Nat) (r : Record) :
    encodeMember s tag (.struct id) (.struct r) =
      block s (.struct id) tag (recordBody s id r) := by
  funext before
  rw [encodeMember, recordBody]

/-- An array is its items behind their number. -/
lemma encodeMember_array (s : Schema) (tag : Tag) (item : TypeRef) (items : List Value) :
    encodeMember s tag (.array item) (.array items) =
      (Writing.fixed (orTooLarge s (.array item) items.length
        (writeRepeat? tag items.length))).andThen (joined (encodeMember s .zero item) items) := by
  funext before
  rw [encodeMember, encodeItems_eq_joined]

section

variable {s : Schema}

/-- Encoding a value at a type gives the members that it is written as. -/
def Encodes (s : Schema) (type : TypeRef) (v : Value) : Prop :=
  ∀ tag, (encodeMember s tag type v).Yields fun bytes =>
    ∃ p, Writes s type v p ∧ bytes = p.bytes tag

lemma yields_encodeState {struct : Schema.StructType} {f : Schema.Field} {state : FieldState}
    (hvalue : ∀ x, state = .present x → Encodes s f.type x) :
    (encodeState s struct f state).Yields fun bytes =>
      (state = .null → f.optional) ∧ (f.isMandatory → state.isSent) ∧
        ∃ p, (∀ x, state = .present x → Writes s f.type x p) ∧ bytes = sentBytes f p state := by
  intro before bytes
  cases state with
  | present x =>
    rw [encodeState, hvalue x rfl]
    simp [FieldState.isSent, sentBytes]
  | null =>
    by_cases ho : f.optional
    · rw [encodeState, if_pos ho, Writing.fixed, Except.ok.injEq, eq_comm]
      simp [ho, FieldState.isSent, sentBytes]
    · simp [encodeState, ho, Writing.fixed]
  | defaulted d | absent =>
    by_cases hm : f.isMandatory
    · simp [encodeState, hm, FieldState.isSent, Writing.fixed]
    · rw [encodeState, if_neg hm, Writing.fixed, Except.ok.injEq, eq_comm]
      simp [hm, sentBytes]

/-- The members of a record are written just as the payload of its struct. -/
lemma yields_recordBody_of_encodes {id : Nat} (hascends : (s.structType id).Ascends) {r : Record}
    (hvalue : ∀ f ∈ (s.structType id).fields, ∀ x, r.get f.tag = .present x →
      Encodes s f.type x) :
    (recordBody s id r).Yields (WritesPayload s (.struct id) (.struct r)) := by
  refine (yields_recordBody s hascends fun f hf => yields_encodeState (hvalue f hf)).congr
    fun bytes => ?_
  constructor
  · rintro ⟨hdeclared, written, hwritten, rfl⟩
    choose! part hpart hbytes using fun f hf => (hwritten f hf).2.2
    have hr : (s.structType id).Sendable r :=
      ⟨hdeclared, fun f hf => (hwritten f hf).1, fun f hf => (hwritten f hf).2.1⟩
    rw [List.flatMap_congr hbytes]
    exact .struct hr hpart
  · intro h
    cases h with
    | @struct _ _ part hr hpart =>
      exact ⟨hr.declared, _,
        fun f hf => ⟨hr.null f hf, hr.mandatory f hf, part f, hpart f hf, rfl⟩, rfl⟩
    | member hstruct => exact absurd rfl (hstruct id)

/-- The active member of a union is written just as its payload. -/
lemma yields_unionBody_of_encodes {id : Nat} {active : Tag} {payload : Value}
    (hvalue : ∀ type, Encodes s type payload) :
    (unionBody s id active payload).Yields
      (WritesPayload s (.union id) (.union active payload)) := by
  intro before bytes
  rw [unionBody]
  constructor
  · intro h
    cases hv : (s.unionType id).variantByTag? active with
    | none =>
      simp only [hv] at h
      cases h
    | some v =>
      simp only [hv] at h
      obtain ⟨part, hpart, rfl⟩ := (hvalue v.type _ _ _).mp h
      rw [(Schema.UnionType.mem_of_variantByTag? hv).2]
      exact .union hv hpart
  · intro h
    cases h with
    | @union _ _ _ v part hv hpart =>
      simp only [hv]
      rw [(Schema.UnionType.mem_of_variantByTag? hv).2]
      exact (hvalue v.type _ _ _).mpr ⟨part, hpart, rfl⟩
    | member hstruct hunion => exact absurd rfl (hunion id)

/-- **Encoding a member.**  The encoder succeeds exactly on values that are written at the type. -/
theorem encodes (hs : s.Ascends) (type : TypeRef) (v : Value) : Encodes s type v := by
  induction v generalizing type with
  | bool b =>
    intro tag before bytes
    constructor
    · intro h
      unfold encodeMember at h
      split at h
      · obtain rfl := Except.ok.inj h
        exact ⟨_, .bool b, writeInt_eq tag _⟩
      · cases h
    · rintro ⟨_, ⟨⟩, rfl⟩
      rw [encodeMember, writeInt_eq]
  | int k n =>
    intro tag before bytes
    constructor
    · intro h
      unfold encodeMember at h
      split at h
      · rename_i htype
        obtain rfl := Except.ok.inj h
        exact ⟨_, htype ▸ .int k n, writeInt_eq tag _⟩
      · cases h
    · rintro ⟨_, ⟨⟩, rfl⟩
      rw [encodeMember, if_pos rfl, writeInt_eq]
  | f32 x =>
    intro tag before bytes
    constructor
    · intro h
      unfold encodeMember at h
      split at h
      · obtain rfl := Except.ok.inj h
        exact ⟨_, .f32 x, rfl⟩
      · cases h
    · rintro ⟨_, ⟨⟩, rfl⟩
      rw [encodeMember]
      rfl
  | f64 x =>
    intro tag before bytes
    constructor
    · intro h
      unfold encodeMember at h
      split at h
      · obtain rfl := Except.ok.inj h
        exact ⟨_, .f64 x, rfl⟩
      · cases h
    · rintro ⟨_, ⟨⟩, rfl⟩
      rw [encodeMember]
      rfl
  | string text =>
    intro tag before bytes
    constructor
    · intro h
      unfold encodeMember at h
      split at h
      · obtain ⟨hlen, rfl⟩ := writeBytes?_eq_some_iff.mp (orTooLarge_eq_ok_iff.mp h)
        exact ⟨_, .string hlen, rfl⟩
      · cases h
    · rintro ⟨_, h, rfl⟩
      cases h with
      | string hlen =>
        rw [encodeMember]
        exact orTooLarge_eq_ok_iff.mpr (writeBytes?_eq_some_iff.mpr ⟨hlen, rfl⟩)
  | bytes data =>
    intro tag before bytes
    constructor
    · intro h
      unfold encodeMember at h
      split at h
      · obtain ⟨hlen, rfl⟩ := writeBytes?_eq_some_iff.mp (orTooLarge_eq_ok_iff.mp h)
        exact ⟨_, .bytes hlen, rfl⟩
      · cases h
    · rintro ⟨_, h, rfl⟩
      cases h with
      | bytes hlen =>
        rw [encodeMember]
        exact orTooLarge_eq_ok_iff.mpr (writeBytes?_eq_some_iff.mpr ⟨hlen, rfl⟩)
  | enum n =>
    intro tag before bytes
    constructor
    · intro h
      unfold encodeMember at h
      split at h
      · dsimp only at h
        split at h
        · rename_i hc
          obtain rfl := Except.ok.inj h
          exact ⟨_, .enum hc, writeInt_eq tag _⟩
        · cases h
      · cases h
    · rintro ⟨_, h, rfl⟩
      cases h with
      | enum hc =>
        rw [encodeMember, if_pos hc, writeInt_eq]
  | union active payload ih =>
    intro tag before bytes
    constructor
    · intro h
      cases type with
      | union id =>
        rw [encodeMember_union, (yields_unionBody_of_encodes ih).block tag] at h
        obtain ⟨body, hbody, hlen, rfl⟩ := h
        cases hbody with
        | union hv hpart => exact ⟨_, .union hv hpart hlen, rfl⟩
        | member _ hunion => exact absurd rfl (hunion id)
      | _ =>
        unfold encodeMember at h
        cases h
    · rintro ⟨_, h, rfl⟩
      cases h with
      | union hv hpart hlen =>
        rw [encodeMember_union, (yields_unionBody_of_encodes ih).block tag]
        exact ⟨_, .union hv hpart, hlen, rfl⟩
  | struct r ih =>
    -- what a field stores is encoded as a part of the record, whatever the struct is
    have hbody (id : Nat) : (recordBody s id r).Yields (WritesPayload s (.struct id) (.struct r)) :=
      yields_recordBody_of_encodes (hs.structType id) fun f _ x hx =>
        ih f.tag x (by rw [hx]; rfl) f.type
    intro tag before bytes
    constructor
    · intro h
      cases type with
      | struct id =>
        rw [encodeMember_struct, (hbody id).block tag] at h
        obtain ⟨body, hbody, hlen, rfl⟩ := h
        cases hbody with
        | struct hr hpart => exact ⟨_, .struct hr hpart hlen, rfl⟩
        | member hstruct => exact absurd rfl (hstruct id)
      | _ =>
        unfold encodeMember at h
        cases h
    · rintro ⟨_, h, rfl⟩
      cases h with
      | @struct id _ part hr hpart hlen =>
        rw [encodeMember_struct, (hbody id).block tag]
        exact ⟨_, .struct hr hpart, hlen, rfl⟩
  | array items ih =>
    -- the items stand behind their number, each of them wherever those before it end
    have hitems (item : TypeRef) (tag : Tag) :=
      (Writing.yields_fixed (orTooLarge s (.array item) items.length
        (writeRepeat? tag items.length))).andThen
          (yields_joined fun x hx => ih x hx item .zero)
    intro tag before bytes
    constructor
    · intro h
      cases type with
      | array item =>
        rw [encodeMember_array, hitems item tag] at h
        obtain ⟨front, hfront, body, ⟨written, hwritten, rfl⟩, rfl⟩ := h
        obtain ⟨hcount, rfl⟩ := writeRepeat?_eq_some_iff.mp (orTooLarge_eq_ok_iff.mp hfront)
        choose! part hpart hbytes using hwritten
        refine ⟨_, .array hcount hpart, ?_⟩
        rw [List.flatMap_congr hbytes, Piece.bytes, List.append_assoc]
      | _ =>
        unfold encodeMember at h
        cases h
    · rintro ⟨_, h, rfl⟩
      cases h with
      | @array item _ part hcount hpart =>
        rw [encodeMember_array, hitems item tag]
        refine ⟨_, orTooLarge_eq_ok_iff.mpr (writeRepeat?_eq_some_iff.mpr ⟨hcount, rfl⟩), _,
          ⟨_, fun x hx => ⟨part x, hpart x hx, rfl⟩, rfl⟩, ?_⟩
        rw [Piece.bytes, List.append_assoc]

/-! ## Payloads -/

lemma yields_recordBody_payload (hs : s.Ascends) (id : Nat) (r : Record) :
    (recordBody s id r).Yields (WritesPayload s (.struct id) (.struct r)) :=
  yields_recordBody_of_encodes (hs.structType id) fun f _ x _ => encodes hs f.type x

lemma yields_unionBody_payload (hs : s.Ascends) (id : Nat) (active : Tag) (payload : Value) :
    (unionBody s id active payload).Yields
      (WritesPayload s (.union id) (.union active payload)) :=
  yields_unionBody_of_encodes fun type => encodes hs type payload

lemma encode_struct_eq_ok_iff (hs : s.Ascends) {id : Nat} {r : Record} {bytes : Bytes} :
    encodeRecord s id r = .ok bytes ↔ WritesPayload s (.struct id) (.struct r) bytes :=
  yields_recordBody_payload hs id r 0 bytes

lemma encode_union_eq_ok_iff (hs : s.Ascends) {id : Nat} {active : Tag} {payload : Value}
    {bytes : Bytes} : encodeUnion s id active payload = .ok bytes ↔
      WritesPayload s (.union id) (.union active payload) bytes :=
  yields_unionBody_payload hs id active payload 0 bytes

lemma encode_member_eq_ok_iff (hs : s.Ascends) {type : TypeRef} {v : Value} {bytes : Bytes}
    (hstruct : ∀ id, type ≠ .struct id) (hunion : ∀ id, type ≠ .union id) :
    encodeMember s .zero type v 0 = .ok bytes ↔ WritesPayload s type v bytes := by
  rw [encodes hs type v]
  constructor
  · rintro ⟨part, hpart, rfl⟩
    exact .member hstruct hunion hpart
  · intro h
    cases h with
    | @struct id => exact absurd rfl (hstruct id)
    | @union id => exact absurd rfl (hunion id)
    | member _ _ hpart => exact ⟨_, hpart, rfl⟩

/-- **Encoding a payload.**  The encoder succeeds exactly on values that are written as payloads. -/
theorem encode_eq_ok_iff (hs : s.Ascends) {type : TypeRef} {v : Value} {bytes : Bytes} :
    encode s v type = .ok bytes ↔ WritesPayload s type v bytes := by
  cases type with
  | prim p => exact encode_member_eq_ok_iff hs (by simp) (by simp)
  | enum id => exact encode_member_eq_ok_iff hs (by simp) (by simp)
  | array item => exact encode_member_eq_ok_iff hs (by simp) (by simp)
  | struct id =>
    cases v with
    | struct r => exact encode_struct_eq_ok_iff hs
    | _ =>
      constructor
      · intro h
        cases h
      · intro h
        cases h with
        | member hstruct => exact absurd rfl (hstruct id)
  | union id =>
    cases v with
    | union active payload => exact encode_union_eq_ok_iff hs
    | _ =>
      constructor
      · intro h
        cases h
      · intro h
        cases h with
        | member hstruct hunion => exact absurd rfl (hunion id)

end

end Codec

end SchemaRpc
