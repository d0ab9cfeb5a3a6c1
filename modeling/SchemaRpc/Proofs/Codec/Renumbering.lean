/-
# Positions do not matter

Encoding and decoding see of a schema what its types are made of and how they are called, and not
at which positions they stand.  Two schemas whose types correspond in these respects write and
read alike: the same bytes and values, and where there are none the same errors.

* `encode_renumbered` and `decode_renumbered` say so of types of the same shape,
* `alike_of_perm` says so of the schemas of packages that differ in the order of declaration.
-/
import SchemaRpc.Codec.Decode
import SchemaRpc.Proofs.Codec.Encoding
import SchemaRpc.Proofs.Schema.Order

namespace SchemaRpc

namespace Schema

section

variable {α β : Type} {tagOf : α → Tag} {tagOf' : β → Tag} {R : α → β → Prop} {l : List α}
  {l' : List β}

/-- Searches in lists that correspond find members that do. -/
lemma searchByTag_rel (htag : ∀ a b, R a b → tagOf' b = tagOf a) (h : List.Forall₂ R l l')
    (tag : Tag) (steps : Nat) :
    Option.Rel R (searchByTag tagOf tag steps l) (searchByTag tagOf' tag steps l') := by
  induction steps generalizing l l' with
  | zero => exact .none
  | succ steps ih =>
    have htake := List.forall₂_take (l.length / 2) h
    have hdrop := List.forall₂_drop (l.length / 2) h
    rw [searchByTag, searchByTag, ← h.length_eq]
    generalize l.drop (l.length / 2) = m at hdrop ⊢
    generalize l'.drop (l.length / 2) = m' at hdrop ⊢
    cases hdrop with
    | nil => exact .none
    | cons hab hbehind =>
      dsimp only
      rw [htag _ _ hab]
      split
      · exact .some hab
      · split
        · exact ih htake
        · exact ih hbehind

end

section

variable {rel : TypeRef → TypeRef → Prop}

lemma fieldByTag?_rel {t t' : StructType}
    (h : List.Forall₂ (Field.Keeps rel) t.fields t'.fields) (tag : Tag) :
    Option.Rel (Field.Keeps rel) (t.fieldByTag? tag) (t'.fieldByTag? tag) := by
  rw [StructType.fieldByTag?, StructType.fieldByTag?, ← h.length_eq]
  exact searchByTag_rel (fun _ _ hkeeps => hkeeps.tag) h tag _

lemma variantByTag?_rel {u u' : UnionType}
    (h : List.Forall₂ (Variant.Keeps rel) u.variants u'.variants) (tag : Tag) :
    Option.Rel (Variant.Keeps rel) (u.variantByTag? tag) (u'.variantByTag? tag) := by
  rw [UnionType.variantByTag?, UnionType.variantByTag?, ← h.length_eq]
  exact searchByTag_rel (fun _ _ hkeeps => hkeeps.tag) h tag _

end

end Schema

namespace Codec

open Schema

variable {s s' : Schema} {rel : TypeRef → TypeRef → Prop}

/-! ## Encoding -/

/-- A value is written alike at all types that correspond. -/
def WrittenAlike (s s' : Schema) (rel : TypeRef → TypeRef → Prop) (v : Value) : Prop :=
  ∀ tag a b, rel a b → encodeMember s tag a v = encodeMember s' tag b v

lemma joined_congr {α : Type} {write write' : α → Writing} {l : List α}
    (h : ∀ a ∈ l, write a = write' a) : joined write l = joined write' l := by
  induction l with
  | nil => rfl
  | cons a l ih =>
    rw [List.forall_mem_cons] at h
    rw [joined, joined, h.1, ih h.2]

section

variable {t t' : StructType} (hname : t'.name = t.name)
  (h : List.Forall₂ (Field.Keeps rel) t.fields t'.fields)

include h

lemma encodeSlot_eq {slot : Slot Value}
    (hslot : ∀ x, slot = .present x → WrittenAlike s s' rel x) (tag : Tag) :
    encodeSlot s tag ((t.fieldByTag? tag).map (·.type)) slot =
      encodeSlot s' tag ((t'.fieldByTag? tag).map (·.type)) slot := by
  have hfield := fieldByTag?_rel h tag
  cases slot with
  | present x =>
    generalize t.fieldByTag? tag = f at hfield ⊢
    generalize t'.fieldByTag? tag = g at hfield ⊢
    cases hfield with
    | none => rfl
    | some hkeeps =>
      rw [Option.map_some, Option.map_some, encodeSlot, encodeSlot,
        hslot x rfl tag _ _ hkeeps.type]
  | null => rfl
  | defaulted d => rfl

lemma encodeSlots_eq {floor : Option Tag} (slots : Slots floor)
    (hslots : ∀ k x, slots.find? k = some (.present x) → WrittenAlike s s' rel x) :
    encodeSlots s t slots = encodeSlots s' t' slots := by
  induction slots with
  | nil => rw [encodeSlots, encodeSlots]
  | cons tag above slot more ih =>
    rw [encodeSlots, encodeSlots, ih fun k x hx => hslots k x ?_, encodeSlot_eq h fun x hx => ?_]
    · refine hslots tag x ?_
      rw [Ascending.find?_cons, if_pos rfl, hx]
    · rw [Ascending.find?_cons, if_neg, hx]
      -- the keys that follow are larger
      rintro rfl
      rw [Ascending.find?_eq_none_of_le le_rfl more rfl] at hx
      cases hx

omit h in
include hname in
lemma assemble_eq (contributions : List (Tag × Contribution)) {fields fields' : List Field}
    (hfields : List.Forall₂ (Field.Keeps rel) fields fields') :
    assemble t contributions fields = assemble t' contributions fields' := by
  induction hfields with
  | nil => rfl
  | cons hkeeps _ ih =>
    rw [assemble, assemble, hkeeps.tag, hkeeps.name, hkeeps.optional, hkeeps.isMandatory, hname, ih]

include hname in
lemma structBody_eq (contributions : List (Tag × Contribution)) :
    structBody t contributions = structBody t' contributions := by
  have hunknown : (fun c : Tag × Contribution => (t.fieldByTag? c.1).isNone) =
      fun c => (t'.fieldByTag? c.1).isNone := by
    funext c
    have hfield := fieldByTag?_rel h c.1
    generalize t.fieldByTag? c.1 = f at hfield ⊢
    generalize t'.fieldByTag? c.1 = g at hfield ⊢
    cases hfield <;> rfl
  rw [structBody, structBody, hunknown, hname, assemble_eq hname contributions h]

end

section

variable (hshape : ∀ a b, rel a b → SameShape s s' rel a b)
include hshape

lemma mismatch_eq {a b : TypeRef} (hab : rel a b) (v : Value) :
    mismatch s a v = mismatch s' b v := by
  rw [mismatch, mismatch, typeName_eq hshape hab]

lemma orTooLarge_eq {a b : TypeRef} (hab : rel a b) (length : Nat) (written : Option Bytes) :
    orTooLarge s a length written = orTooLarge s' b length written := by
  unfold orTooLarge
  rw [typeName_eq hshape hab]

lemma block_eq {a b : TypeRef} (hab : rel a b) (tag : Tag) (content : Writing) :
    block s a tag content = block s' b tag content := by
  unfold block
  simp only [orTooLarge_eq hshape hab]

omit hshape in
lemma recordBody_eq {i j : Nat} (hname : (s'.structType j).name = (s.structType i).name)
    (h : List.Forall₂ (Field.Keeps rel) (s.structType i).fields (s'.structType j).fields)
    {r : Record} (hr : ∀ t x, r.get t = .present x → WrittenAlike s s' rel x) :
    recordBody s i r = recordBody s' j r := by
  have hslots := encodeSlots_eq h r fun t x hx => hr t x (by rw [Record.get, hx]; rfl)
  rw [recordBody, recordBody, hslots, structBody_eq hname h]

omit hshape in
lemma unionBody_eq {i j : Nat} (hname : (s'.unionType j).name = (s.unionType i).name)
    (h : List.Forall₂ (Variant.Keeps rel) (s.unionType i).variants (s'.unionType j).variants)
    (active : Tag) {payload : Value} (hpayload : WrittenAlike s s' rel payload) :
    unionBody s i active payload = unionBody s' j active payload := by
  have hvariant := variantByTag?_rel h active
  rw [unionBody, unionBody]
  generalize (s.unionType i).variantByTag? active = v at hvariant ⊢
  generalize (s'.unionType j).variantByTag? active = u at hvariant ⊢
  cases hvariant with
  | none => simp only [hname]
  | some hkeeps => simp only [hkeeps.tag, hpayload _ _ _ hkeeps.type]

lemma writtenAlike (v : Value) : WrittenAlike s s' rel v := by
  induction v with
  | union active payload ih =>
    intro tag a b hab
    have hmismatch := mismatch_eq hshape hab
    cases hshape a b hab with
    | union hname h =>
      rw [encodeMember_union, encodeMember_union, unionBody_eq hname h active ih,
        block_eq hshape hab]
    | _ =>
      funext before
      simp only [encodeMember, hmismatch]
  | struct r ih =>
    intro tag a b hab
    have hmismatch := mismatch_eq hshape hab
    cases hshape a b hab with
    | struct hname h =>
      have hrecord := recordBody_eq hname h fun t x hx => ih t x (by rw [hx]; rfl)
      rw [encodeMember_struct, encodeMember_struct, hrecord, block_eq hshape hab]
    | _ =>
      funext before
      simp only [encodeMember, hmismatch]
  | array items ih =>
    intro tag a b hab
    have hmismatch := mismatch_eq hshape hab
    cases hshape a b hab with
    | array h =>
      have hitems := joined_congr fun x hx => ih x hx .zero _ _ h
      rw [encodeMember_array, encodeMember_array, orTooLarge_eq hshape hab, hitems]
    | _ =>
      funext before
      simp only [encodeMember, hmismatch]
  | _ =>
    -- what is left are scalars, so the primitive type decides
    intro tag a b hab
    have hmismatch := mismatch_eq hshape hab
    have hlarge := orTooLarge_eq hshape hab
    funext before
    cases hshape a b hab with
    | prim p => cases p <;> simp only [encodeMember, hmismatch, hlarge]
    | enum h => simp only [encodeMember, hmismatch, h, reduceCtorEq, if_false]
    | _ => simp only [encodeMember, hmismatch, reduceCtorEq, if_false]

/-- **Encoding.**  At types that correspond, a value has the same bytes, or none for the same
reason. -/
theorem encode_renumbered {a b : TypeRef} (hab : rel a b) (v : Value) :
    encode s v a = encode s' v b := by
  have hmismatch := mismatch_eq hshape hab v
  have hmember := congrFun (writtenAlike hshape v .zero a b hab) 0
  cases hshape a b hab with
  | prim p => exact hmember
  | enum _ => exact hmember
  | array _ => exact hmember
  | union hname h =>
    cases v with
    | union active payload =>
      exact congrFun (unionBody_eq hname h active (writtenAlike hshape payload)) 0
    | _ => exact congrArg Except.error hmismatch
  | struct hname h =>
    cases v with
    | struct r => exact congrFun (recordBody_eq hname h fun _ x _ => writtenAlike hshape x) 0
    | _ => exact congrArg Except.error hmismatch

/-! ## Decoding -/

section

variable {a b : TypeRef} (hab : rel a b)
include hab

lemma malformed_eq {α : Type} (offset : Nat) (reason : Malformation) :
    (malformed s a offset reason : Decoding α) = malformed s' b offset reason := by
  rw [malformed, malformed, typeName_eq hshape hab]

lemma framed_eq {α : Type} (read : Wire.Reading α) : framed s a read = framed s' b read := by
  funext r
  rw [framed, framed, typeName_eq hshape hab]

lemma passOver_eq (limit budget : Nat) (kind : Wire.Kind) :
    passOver s limit budget a kind = passOver s' limit budget b kind := by
  funext r
  rw [passOver, passOver, typeName_eq hshape hab]

lemma tooDeep_eq {α : Type} (limit : Nat) :
    (tooDeep s limit a : Decoding α) = tooDeep s' limit b := by
  rw [tooDeep, tooDeep, typeName_eq hshape hab]

end

lemma decodePrimitive_eq {p : Primitive} (h : rel (.prim p) (.prim p)) (kind : Wire.Kind) :
    decodePrimitive s p kind = decodePrimitive s' p kind := by
  cases p <;> simp only [decodePrimitive, framed_eq hshape h, malformed_eq hshape h]

lemma decodeEnum_eq {i j : Nat} (hij : rel (.enum i) (.enum j))
    (h : s'.enumType j = s.enumType i) (kind : Wire.Kind) :
    decodeEnum s i kind = decodeEnum s' j kind := by
  rw [decodeEnum, decodeEnum, framed_eq hshape hij, h]

omit hshape in
lemma fillIn_eq {t t' : StructType} (hname : t'.name = t.name) {fields fields' : List Field}
    (h : List.Forall₂ (Field.Keeps rel) fields fields') (done : Record) :
    fillIn t fields done = fillIn t' fields' done := by
  induction h generalizing done with
  | nil => rfl
  | cons hkeeps _ ih =>
    simp only [fillIn, hkeeps.tag, hkeeps.name, hkeeps.optional, hkeeps.default, hname, ih]

section

variable {member member' : MemberDecoder}
  (hmember : ∀ a b, rel a b → member a = member' b)
include hmember

lemma decodeMembers_eq {i j : Nat} (hij : rel (.struct i) (.struct j))
    (h : List.Forall₂ (Field.Keeps rel) (s.structType i).fields (s'.structType j).fields)
    (limit budget fuel : Nat) (last : Option Tag) (done : Record) :
    decodeMembers s limit budget member i fuel last done =
      decodeMembers s' limit budget member' j fuel last done := by
  induction fuel generalizing last done with
  | zero => rfl
  | succ fuel ih =>
    rw [decodeMembers, decodeMembers]
    refine bind_congr fun start => ?_
    split
    · rfl
    dsimp only
    rw [framed_eq hshape hij]
    refine bind_congr fun header => ?_
    cases last.filter (header.tag ≤ ·) with
    | some previous => exact malformed_eq hshape hij _ _
    | none =>
      have hfield := fieldByTag?_rel h header.tag
      generalize (s.structType i).fieldByTag? header.tag = f at hfield ⊢
      generalize (s'.structType j).fieldByTag? header.tag = g at hfield ⊢
      cases hfield with
      | none => simp only [passOver_eq hshape hij, ih]
      | some hkeeps =>
        simp only [framed_eq hshape hij, malformed_eq hshape hij, hkeeps.optional, hkeeps.tag,
          hkeeps.name, hmember _ _ hkeeps.type, ih]

lemma decodeRecord_eq {i j : Nat} (hij : rel (.struct i) (.struct j))
    (hname : (s'.structType j).name = (s.structType i).name)
    (h : List.Forall₂ (Field.Keeps rel) (s.structType i).fields (s'.structType j).fields)
    (limit budget : Nat) :
    decodeRecord s limit budget member i = decodeRecord s' limit budget member' j := by
  simp only [decodeRecord, decodeMembers_eq hshape hmember hij h, fillIn_eq hname h]

lemma decodeVariant_eq {i j : Nat} (hij : rel (.union i) (.union j))
    (hname : (s'.unionType j).name = (s.unionType i).name)
    (h : List.Forall₂ (Variant.Keeps rel) (s.unionType i).variants (s'.unionType j).variants) :
    decodeVariant s member i = decodeVariant s' member' j := by
  rw [decodeVariant, decodeVariant]
  refine bind_congr fun start => ?_
  rw [framed_eq hshape hij]
  refine bind_congr fun header => ?_
  have hvariant := variantByTag?_rel h header.tag
  generalize (s.unionType i).variantByTag? header.tag = v at hvariant ⊢
  generalize (s'.unionType j).variantByTag? header.tag = u at hvariant ⊢
  cases hvariant with
  | none => simp only [hname]
  | some hkeeps =>
    simp only [hmember _ _ hkeeps.type, hkeeps.tag, malformed_eq hshape hij]

lemma decodeItems_eq {a b : TypeRef} (harray : rel (.array a) (.array b)) (hab : rel a b)
    (count : Nat) (done : List Value) :
    decodeItems s member a count done = decodeItems s' member' b count done := by
  induction count generalizing done with
  | zero => rfl
  | succ count ih =>
    simp only [decodeItems, framed_eq hshape harray, malformed_eq hshape harray, hmember _ _ hab,
      ih]

end

/-- Members of types that correspond are decoded alike, however deep they may nest. -/
lemma decodeMember_eq (limit budget : Nat) {a b : TypeRef} (hab : rel a b) :
    decodeMember s limit budget a = decodeMember s' limit budget b := by
  induction budget generalizing a b with
  | zero =>
    funext kind
    have hdeep := tooDeep_eq (α := Value) hshape hab limit
    cases hshape a b hab with
    | prim p => exact decodePrimitive_eq hshape hab kind
    | enum h => exact decodeEnum_eq hshape hab h kind
    | _ => exact hdeep
  | succ budget ih =>
    have hmember := fun a b => @ih a b
    funext kind
    cases hshape a b hab with
    | prim p => exact decodePrimitive_eq hshape hab kind
    | enum h => exact decodeEnum_eq hshape hab h kind
    | union hname h =>
      simp only [decodeMember, framed_eq hshape hab,
        decodeVariant_eq hshape hmember hab hname h]
    | struct hname h =>
      simp only [decodeMember, framed_eq hshape hab,
        decodeRecord_eq hshape hmember hab hname h]
    | array h =>
      simp only [decodeMember, framed_eq hshape hab, decodeItems_eq hshape hmember hab h]

/-- **Decoding.**  At types that correspond, bytes are read as the same value, or refused for the
same reason. -/
theorem decode_renumbered {a b : TypeRef} (hab : rel a b) (limits : Limits) (bytes : Bytes) :
    decode s limits bytes a = decode s' limits bytes b := by
  have hmember := fun a b => decodeMember_eq (a := a) (b := b) hshape limits.maxDepth
    limits.maxDepth
  have hself := hmember a b hab
  rw [decode, decode]
  congr 1
  cases hshape a b hab with
  | union hname h => simp only [decodeTop, decodeVariant_eq hshape hmember hab hname h]
  | struct hname h => simp only [decodeTop, decodeRecord_eq hshape hmember hab hname h]
  | _ => simp only [decodeTop, framed_eq hshape hab, malformed_eq hshape hab, hself]

end

/-! ## The order of declaration -/

/-- **Order of declaration.**  Let no type expression of a package have a dot.  Then its
declarations can be resolved in every order or in none, and the schemas of two orders agree: types
of the same names are made alike, methods are found by the same routes, every value is encoded
alike, and all bytes are decoded alike within all limits. -/
theorem alike_of_perm {p : Package} (hplain : p.Plain) {ds : List Package.Declaration}
    (hperm : p.declarations.Perm ds) :
    ((∃ s, resolve p = .ok s) ↔ ∃ s', resolve ⟨p.name, ds⟩ = .ok s') ∧
    ∀ s s', resolve p = .ok s → resolve ⟨p.name, ds⟩ = .ok s' →
      s.Agree s' ∧ ∀ a b, SameNames s s' a b →
        (∀ v, encode s v a = encode s' v b) ∧
        ∀ limits bytes, decode s limits bytes a = decode s' limits bytes b := by
  refine ⟨⟨exists_resolve_of_perm hplain hperm, exists_resolve_of_perm (p := ⟨p.name, ds⟩)
    (plain_of_perm hplain hperm) hperm.symm⟩, fun s s' hs hs' => ?_⟩
  have hagree := agree_of_subset hs hs' hperm.subset hperm.symm.subset
  exact ⟨hagree, fun a b hab => ⟨encode_renumbered hagree.shape hab,
    decode_renumbered hagree.shape hab⟩⟩

/-- The package of parcels with its declarations in the opposite order. -/
def parcelsBackwards : Package := ⟨"parcels", parcels.declarations.reverse⟩

/-- Its schema: the structs have changed places. -/
def parcelsBackwardsSchema : Schema where
  package := "parcels"
  fingerprint := fingerprintOf parcelsBackwards
  enums := []
  unions := [⟨"Place", [⟨"box", .ofNat 1, .prim (.int .u32)⟩, ⟨"item", .ofNat 2, .struct 1⟩]⟩]
  structs := [
    ⟨"Parcel", [⟨"weight", .ofNat 1, .prim (.int .u16), false, none⟩,
      ⟨"place", .ofNat 2, .union 0, true, none⟩,
      ⟨"items", .ofNat 5, .array (.struct 1), true, none⟩]⟩,
    parcelsSchema.structType 0]
  interfaces := []
  modules := []
  typeNames := [("Parcel", .struct 0), ("Place", .union 0), ("Item", .struct 1)]
  interfaceNames := []

/-- Parcels are written alike in both orders. -/
theorem alike_of_perm_parcels :
    parcels.Plain ∧ parcels.declarations.Perm parcels.declarations.reverse ∧
    resolve parcels = .ok parcelsSchema ∧ resolve parcelsBackwards = .ok parcelsBackwardsSchema ∧
    parcelsSchema.Agree parcelsBackwardsSchema ∧
    SameNames parcelsSchema parcelsBackwardsSchema (.struct 1) (.struct 0) ∧
    (∀ v, encode parcelsSchema v (.struct 1) = encode parcelsBackwardsSchema v (.struct 0)) ∧
    ∀ limits bytes, decode parcelsSchema limits bytes (.struct 1) =
      decode parcelsBackwardsSchema limits bytes (.struct 0) := by
  have hplain : parcels.Plain := by
    constructor <;> simp [parcels, declaredUnion?, structsOf, declaredStruct?, parameterLists,
      declaredInterface?, Package.TypeExpr.Plain]
  have hperm : parcels.declarations.Perm parcels.declarations.reverse :=
    (List.reverse_perm _).symm
  have hbackwards : resolve parcelsBackwards = .ok parcelsBackwardsSchema := by rfl
  obtain ⟨hagree, halike⟩ := (alike_of_perm hplain hperm).2 _ _ resolve_parcels hbackwards
  have hnames : SameNames parcelsSchema parcelsBackwardsSchema (.struct 1) (.struct 0) :=
    .struct rfl rfl
  exact ⟨hplain, hperm, resolve_parcels, hbackwards, hagree, hnames, halike _ _ hnames⟩

end Codec

end SchemaRpc
