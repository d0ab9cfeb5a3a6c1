/-
# A writer and a reader with schemas of their own

The types of the two schemas correspond under a relation between them that respects how types are
made.  The relation is a simulation: it may relate types that refer to each other, and each step
goes from two related types to the types of their parts.  The reader passes over the members that
it does not know and fills in the fields that it is not sent.  Integers are left to parameters:
what the reader makes of them, and which of them it refuses.
-/
import SchemaRpc.Proofs.Codec.Decoding
import SchemaRpc.Proofs.Codec.Written

namespace SchemaRpc

namespace Codec

open Wire

section

variable (w r : Schema) (rel : TypeRef → TypeRef → Prop)

/-- The fields of a struct that writes fit those of a struct that reads. -/
structure FieldsFit (writer reader : Schema.StructType) : Prop where
  shared : ∀ f ∈ writer.fields, ∀ g ∈ reader.fields, f.tag = g.tag → rel f.type g.type
  optional : ∀ f ∈ writer.fields, ∀ g ∈ reader.fields, f.tag = g.tag → f.optional → g.optional
  mandatory : ∀ g ∈ reader.fields, g.isMandatory →
    ∃ f ∈ writer.fields, f.tag = g.tag ∧ f.isMandatory

/-- The ways in which a type of the writer may be related to a type of the reader. -/
inductive Fits : TypeRef → TypeRef → Prop where
  | prim (p : Primitive) : Fits (.prim p) (.prim p)
  | int {j k : IntKind} (hlow : k.least ≤ j.least) (hhigh : j.greatest ≤ k.greatest) :
    Fits (.prim (.int j)) (.prim (.int k))
  | enum {a b : Nat} (h : ∀ n, (w.enumType a).contains n → (r.enumType b).contains n) :
    Fits (.enum a) (.enum b)
  | array {a b : TypeRef} (h : rel a b) : Fits (.array a) (.array b)
  | union {a b : Nat} (h : ∀ v ∈ (w.unionType a).variants, ∃ u ∈ (r.unionType b).variants,
      u.tag = v.tag ∧ rel v.type u.type) : Fits (.union a) (.union b)
  | struct {a b : Nat} (h : FieldsFit rel (w.structType a) (r.structType b)) :
    Fits (.struct a) (.struct b)

/-- The same with integer types of any range on both sides. -/
inductive Alike : TypeRef → TypeRef → Prop where
  | fits {a b : TypeRef} (h : Fits w r rel a b) : Alike a b
  | int (j k : IntKind) : Alike (.prim (.int j)) (.prim (.int k))

end

/-- Somewhere in a value an integer arrives at a type that refuses it. -/
inductive Misfit (r : Schema) (refuses : IntKind → Int → Prop) : TypeRef → Value → Prop where
  | int {j k : IntKind} {n : j.Ranged} (h : refuses k n.val) :
    Misfit r refuses (.prim (.int k)) (.int j n)
  | item {type : TypeRef} {items : List Value} {x : Value} (hx : x ∈ items)
    (h : Misfit r refuses type x) : Misfit r refuses (.array type) (.array items)
  | payload {id : Nat} {active : Tag} {payload : Value} {v : Schema.Variant}
    (hv : (r.unionType id).variantByTag? active = some v) (h : Misfit r refuses v.type payload) :
    Misfit r refuses (.union id) (.union active payload)
  | field {id : Nat} {record : Record} {f : Schema.Field} {x : Value}
    (hf : f ∈ (r.structType id).fields) (hx : record.get f.tag = .present x)
    (h : Misfit r refuses f.type x) : Misfit r refuses (.struct id) (.struct record)

/-- A relation between the types of a writer and a reader that respects how types are made, and
what the reader makes of scalars: it changes integers only, and some of them it may refuse. -/
structure Simulates (w r : Schema) (rel : TypeRef → TypeRef → Prop)
    (scalar : TypeRef → Value → Value) (refuses : IntKind → Int → Prop) : Prop where
  writer : w.Ascends
  reader : r.Ascends
  alike : ∀ a b, rel a b → Alike w r rel a b
  int : ∀ j k (n : j.Ranged), rel (.prim (.int j)) (.prim (.int k)) → ¬ refuses k n.val →
    IsScalar (.int k) (intPiece n.val).kind (intPiece n.val).body
      (scalar (.prim (.int k)) (.int j n))
  other : ∀ type v, (∀ j n, v ≠ .int j n) → scalar type v = v

/-! ## The members of a struct -/

section

variable (see : TypeRef → Value → Value) (reader : Schema.StructType) (record : Record)

/-- What the reader makes of the state that a field sends: nothing if it does not have it. -/
def arrival (f : Schema.Field) : Option (Tag × FieldState) :=
  if (record.get f.tag).isSent then
    (reader.fieldByTag? f.tag).map fun g =>
      (f.tag, (record.get f.tag).mapPresent (see g.type))
  else none

variable {see reader record}

lemma arrival_eq_some_iff {f : Schema.Field} {state : Tag × FieldState} :
    arrival see reader record f = some state ↔ (record.get f.tag).isSent ∧
      ∃ g, reader.fieldByTag? f.tag = some g ∧
        state = (f.tag, (record.get f.tag).mapPresent (see g.type)) := by
  unfold arrival
  by_cases h : (record.get f.tag).isSent
  · simp [h, eq_comm]
  · simp [h]

/-- The member that a field sends can be read, or passed over if the reader does not have it. -/
structure Readable (see : TypeRef → Value → Value)
    (inner : TypeRef → Kind → Bytes → Value → Prop) (depth : Nat) (reader : Schema.StructType)
    (f : Schema.Field) (part : Piece) (state : FieldState) : Prop where
  skips : ∀ x, state = .present x → Skips depth part.kind part.body
  notNull : ∀ x, state = .present x → ∀ more, NotNull part.kind (part.body ++ more)
  null : state = .null → ∀ g, reader.fieldByTag? f.tag = some g → g.optional
  body : ∀ x, state = .present x → ∀ g, reader.fieldByTag? f.tag = some g →
    inner g.type part.kind part.body (see g.type x)

/-- The fields that a writer sends, as the reader finds them. -/
lemma members_of_readable {inner : TypeRef → Kind → Bytes → Value → Prop} {depth : Nat}
    {part : Schema.Field → Piece} {fields : List Schema.Field}
    (hfields : fields.Pairwise (·.tag < ·.tag)) {last : Option Tag}
    (hlast : ∀ f ∈ fields, ∀ t ∈ last, t < f.tag)
    (h : ∀ f ∈ fields, Readable see inner depth reader f (part f) (record.get f.tag)) :
    Members (Skips depth) inner reader last
      (fields.flatMap fun f => sentBytes f (part f) (record.get f.tag))
      (fields.filterMap (arrival see reader record)) := by
  induction fields generalizing last with
  | nil => exact .nil
  | cons f more ih =>
    have hmore := List.pairwise_cons.mp hfields
    rw [List.forall_mem_cons] at hlast h
    obtain ⟨hf, hrest⟩ := h
    have hnext : Members (Skips depth) inner reader (some f.tag)
        (more.flatMap fun f => sentBytes f (part f) (record.get f.tag))
        (more.filterMap (arrival see reader record)) :=
      ih hmore.2 (fun f' hf' t ht => Option.mem_some_iff.mp ht ▸ hmore.1 f' hf') hrest
    rw [List.flatMap_cons]
    cases hstate : record.get f.tag with
    | absent | defaulted d =>
      -- nothing is written, so the tags after this one only have to lie above the last one
      have hnone : arrival see reader record f = none := by
        rw [arrival, hstate]
        rfl
      rw [List.filterMap_cons_none hnone]
      exact ih hmore.2 hlast.2 hrest
    | null =>
      rw [sentBytes, writeNull, List.append_assoc]
      cases hg : reader.fieldByTag? f.tag with
      | none =>
        -- a null of an unknown field is passed over as a block without content
        have hnone : arrival see reader record f = none := by
          rw [arrival, hg, Option.map_none, ite_self]
        rw [List.filterMap_cons_none hnone]
        exact .unknown (isHeader_header _ _) hlast.1 hg (skips_null depth) hnext
      | some g =>
        have hsome : arrival see reader record f = some (f.tag, .null) := by
          rw [arrival, hg, hstate]
          rfl
        rw [List.filterMap_cons_some hsome]
        exact .null (isHeader_header _ _) hlast.1 hg (hf.null hstate g hg) hnext
    | present x =>
      rw [sentBytes, Piece.bytes, List.append_assoc]
      cases hg : reader.fieldByTag? f.tag with
      | none =>
        have hnone : arrival see reader record f = none := by
          rw [arrival, hg, Option.map_none, ite_self]
        rw [List.filterMap_cons_none hnone]
        exact .unknown (isHeader_header _ _) hlast.1 hg (hf.skips x hstate) hnext
      | some g =>
        have hsome : arrival see reader record f = some (f.tag, .present (see g.type x)) := by
          rw [arrival, hg, hstate]
          rfl
        rw [List.filterMap_cons_some hsome]
        exact .present (isHeader_header _ _) hlast.1 hg (hf.notNull x hstate _)
          (hf.body x hstate g hg) hnext

/-- Where the record sends a state and the reader has the field, the state arrives. -/
lemma get_ofList_arrivals {writer : Schema.StructType} (hwriter : writer.Ascends)
    (hdeclared : ∀ t ∈ record.tags, (writer.fieldByTag? t).isSome) {g : Schema.Field}
    (hg : reader.fieldByTag? g.tag = some g) :
    (Record.ofList (writer.fields.filterMap (arrival see reader record))).get g.tag =
      if (record.get g.tag).isSent then (record.get g.tag).mapPresent (see g.type)
      else .absent := by
  -- what arrives keeps the tags of the writer's fields
  have hnodup : ((writer.fields.filterMap (arrival see reader record)).map (·.1)).Nodup := by
    refine List.pairwise_map.mpr ((List.pairwise_map.mp hwriter.nodup_tags).filterMap _ ?_)
    intro f f' hne state hstate state' hstate'
    obtain ⟨-, g, -, rfl⟩ := arrival_eq_some_iff.mp hstate
    obtain ⟨-, g', -, rfl⟩ := arrival_eq_some_iff.mp hstate'
    exact hne
  split
  · rename_i hsent
    have hstored : g.tag ∈ record.tags := by
      rw [Record.mem_tags_iff]
      intro habsent
      rw [habsent] at hsent
      cases hsent
    obtain ⟨f, hf⟩ := Option.isSome_iff_exists.mp (hdeclared _ hstored)
    obtain ⟨hmem, htag⟩ := Schema.StructType.mem_of_fieldByTag? hf
    refine Record.get_setAll_of_mem .empty hnodup (List.mem_filterMap.mpr ⟨f, hmem, ?_⟩)
    rw [arrival_eq_some_iff, htag]
    exact ⟨hsent, g, hg, rfl⟩
  · rename_i hsent
    rcases Record.get_setAll_eq_or_mem g.tag
      (writer.fields.filterMap (arrival see reader record)) .empty with habsent | hmem
    · exact habsent
    · obtain ⟨f, -, harrival⟩ := List.mem_filterMap.mp hmem
      obtain ⟨hfsent, g', hg', heq⟩ := arrival_eq_some_iff.mp harrival
      have htag : g.tag = f.tag := congrArg Prod.fst heq
      rw [htag] at hsent
      exact absurd hfsent hsent

end

/-! ## Records, variants and items -/

section

variable {w r : Schema} {rel : TypeRef → TypeRef → Prop} {see : TypeRef → Value → Value}

/-- What a field of the writer sends can be read by a struct of the reader that it fits. -/
lemma readable_of_fieldsFit {writer reader : Schema.StructType} (hfit : FieldsFit rel writer reader)
    {record : Record} (hsend : writer.Sendable record) {depth : Nat} {f : Schema.Field}
    (hf : f ∈ writer.fields) {part : Piece}
    (hwrites : ∀ x, record.get f.tag = .present x → Writes w f.type x part)
    (hnesting : ∀ x, record.get f.tag = .present x → x.nesting ≤ depth)
    (hbody : ∀ x, record.get f.tag = .present x → ∀ g ∈ reader.fields, f.tag = g.tag →
      Body r depth g.type part.kind part.body (see g.type x)) :
    Readable see (Body r depth) depth reader f part (record.get f.tag) := by
  have hmem {g : Schema.Field} (hg : reader.fieldByTag? f.tag = some g) :=
    Schema.StructType.mem_of_fieldByTag? hg
  refine ⟨fun x hx => (hwrites x hx).skips (hnesting x hx), fun x hx => (hwrites x hx).notNull,
    fun hnull g hg => ?_, fun x hx g hg => hbody x hx g (hmem hg).1 (hmem hg).2.symm⟩
  exact hfit.optional f hf g (hmem hg).1 (hmem hg).2.symm (hsend.null f hf hnull)

/-- What a struct of the writer sends is a record of a struct of the reader that it fits. -/
lemma isRecord_of_fieldsFit {writer reader : Schema.StructType} (hwriter : writer.Ascends)
    (hreader : reader.Ascends) (hfit : FieldsFit rel writer reader) {record : Record}
    (hsend : writer.Sendable record) {depth : Nat} {part : Schema.Field → Piece}
    (hwrites : ∀ f ∈ writer.fields, ∀ x, record.get f.tag = .present x → Writes w f.type x (part f))
    (hnesting : ∀ t x, record.get t = .present x → x.nesting ≤ depth)
    (hbody : ∀ f ∈ writer.fields, ∀ x, record.get f.tag = .present x →
      ∀ g ∈ reader.fields, f.tag = g.tag →
        Body r depth g.type (part f).kind (part f).body (see g.type x)) :
    IsRecord (Skips depth) (Body r depth) reader (recordBytes writer part record)
      (reader.recordOf fun g => g.fill ((record.get g.tag).mapPresent (see g.type))) := by
  have hreadable : ∀ f ∈ writer.fields,
      Readable see (Body r depth) depth reader f (part f) (record.get f.tag) := fun f hf =>
    readable_of_fieldsFit hfit hsend hf (hwrites f hf) (hnesting f.tag) (hbody f hf)
  have hmembers : Members (Skips depth) (Body r depth) reader none
      (recordBytes writer part record) (writer.fields.filterMap (arrival see reader record)) :=
    members_of_readable hwriter (fun _ _ _ h => nomatch h) hreadable
  have hget (g : Schema.Field) (hg : g ∈ reader.fields) :
      (Record.ofList (writer.fields.filterMap (arrival see reader record))).get g.tag =
        if (record.get g.tag).isSent then (record.get g.tag).mapPresent (see g.type)
        else .absent :=
    get_ofList_arrivals hwriter hsend.declared (hreader.fieldByTag?_tag hg)
  have hfilled : reader.filled (.ofList (writer.fields.filterMap (arrival see reader record))) =
      reader.recordOf fun g => g.fill ((record.get g.tag).mapPresent (see g.type)) := by
    refine Schema.StructType.recordOf_congr fun g hg => ?_
    rw [hget g hg]
    split
    · rfl
    · rename_i hsent
      exact (Schema.Field.fill_of_not_isSent (by simpa using hsent)).symm
  rw [← hfilled]
  -- what the reader insists on, the writer insists on as well, and so it was sent
  refine .mk hmembers fun g hg hmandatory => ?_
  obtain ⟨f, hf, htag, hm⟩ := hfit.mandatory g hg hmandatory
  have hsent := hsend.mandatory f hf hm
  rw [htag] at hsent
  rw [hget g hg, if_pos hsent, FieldState.isSent_mapPresent]
  exact hsent

/-- The active variant of a union of the writer is one of a union of the reader that it fits. -/
lemma exists_variant_of_fits (hr : r.Ascends) {a b : Nat}
    (hfit : ∀ v ∈ (w.unionType a).variants, ∃ u ∈ (r.unionType b).variants,
      u.tag = v.tag ∧ rel v.type u.type) {active : Tag} {v : Schema.Variant}
    (hv : (w.unionType a).variantByTag? active = some v) :
    ∃ u, (r.unionType b).variantByTag? active = some u ∧ rel v.type u.type := by
  obtain ⟨hmem, htag⟩ := Schema.UnionType.mem_of_variantByTag? hv
  obtain ⟨u, hu, hutag, hrel⟩ := hfit v hmem
  have hfind := (hr.unionType b).variantByTag?_tag hu
  rw [hutag, htag] at hfind
  exact ⟨u, hfind, hrel⟩

lemma items_flatMap {inner : TypeRef → Kind → Bytes → Value → Prop} {b : TypeRef}
    {items : List Value} {part : Value → Piece} {g : Value → Value}
    (h : ∀ x ∈ items, inner b (part x).kind (part x).body (g x)) :
    Items inner b (items.flatMap fun x => (part x).bytes .zero) (items.map g) := by
  induction items with
  | nil => exact .nil
  | cons x items ih =>
    rw [List.forall_mem_cons] at h
    rw [List.flatMap_cons, Piece.bytes, List.append_assoc]
    exact .cons (isHeader_header _ _) h.1 (ih h.2)

end

/-! ## The simulation -/

section

variable {w r : Schema} {rel : TypeRef → TypeRef → Prop} {scalar : TypeRef → Value → Value}
  {refuses : IntKind → Int → Prop} (hsim : Simulates w r rel scalar refuses)

include hsim

/-- The body that is due for a scalar other than an integer. -/
lemma Simulates.body_other {depth : Nat} {b : TypeRef} {v : Value} {p : Piece}
    (hv : ∀ j n, v ≠ .int j n) (h : Body r depth b p.kind p.body v) :
    Body r depth b p.kind p.body (scalar b v) := by
  rwa [hsim.other b v hv]

/-- **A writer and a reader.**  The member that a value is written as at a type is at every related
type a member of what the reader makes of the value, if it refuses no integer in it. -/
theorem Writes.body_arrive {a : TypeRef} {v : Value} {p : Piece} (h : Writes w a v p) {b : TypeRef}
    (hab : rel a b) {depth : Nat} (hdepth : v.nesting ≤ depth) (hfit : ¬ Misfit r refuses b v) :
    Body r depth b p.kind p.body (v.arrive r scalar b) := by
  have hw := hsim.writer
  have hr := hsim.reader
  induction h generalizing b depth with
  | bool x =>
    refine hsim.body_other (by simp) ?_
    rcases hsim.alike _ _ hab with ⟨⟨⟩⟩
    rw [body_prim]
    exact isScalar_bool x
  | int j n =>
    have hread {k : IntKind} (hrel : rel (.prim (.int j)) (.prim (.int k)))
        (hfit : ¬ Misfit r refuses (.prim (.int k)) (.int j n)) :
        Body r depth (.prim (.int k)) (intPiece n.val).kind (intPiece n.val).body
          ((Value.int j n).arrive r scalar (.prim (.int k))) := by
      rw [body_prim]
      exact hsim.int j k n hrel fun hrefuses => hfit (.int hrefuses)
    rcases hsim.alike _ _ hab with ⟨_ | _⟩ | _
    · exact hread hab hfit
    · exact hread hab hfit
    · exact hread hab hfit
  | f32 x =>
    refine hsim.body_other (by simp) ?_
    rcases hsim.alike _ _ hab with ⟨⟨⟩⟩
    rw [body_prim]
    exact isScalar_f32 x
  | f64 x =>
    refine hsim.body_other (by simp) ?_
    rcases hsim.alike _ _ hab with ⟨⟨⟩⟩
    rw [body_prim]
    exact isScalar_f64 x
  | string hlen =>
    refine hsim.body_other (by simp) ?_
    rcases hsim.alike _ _ hab with ⟨⟨⟩⟩
    rw [body_prim]
    exact .string (isBlock_leastBlock hlen)
  | bytes hlen =>
    refine hsim.body_other (by simp) ?_
    rcases hsim.alike _ _ hab with ⟨⟨⟩⟩
    rw [body_prim]
    exact .bytes (isBlock_leastBlock hlen)
  | enum hc =>
    refine hsim.body_other (by simp) ?_
    rcases hsim.alike _ _ hab with ⟨_ | _ | hlabel⟩
    rw [body_enum]
    exact isLabel_enum (hlabel _ hc)
  | @union id active payload v part hv h hlen ih =>
    obtain ⟨depth, rfl, hpayload⟩ := Value.nesting_union_le_iff.mp hdepth
    rcases hsim.alike _ _ hab with ⟨_ | _ | _ | _ | hvariants⟩
    obtain ⟨u, hu, hrel⟩ := exists_variant_of_fits hr hvariants hv
    have hbody := ih hrel hpayload fun hmisfit => hfit (.payload hu hmisfit)
    exact ⟨_, _, isBlock_wideBlock hlen, .mk (isHeader_header _ _) hu hbody,
      Value.arrive_union r scalar hu payload⟩
  | @struct id record part hsend h hlen ih =>
    obtain ⟨depth, rfl, hnesting⟩ := Value.nesting_struct_le_iff.mp hdepth
    rcases hsim.alike _ _ hab with ⟨_ | _ | _ | _ | _ | hfields⟩
    rename_i b
    have hrecord := isRecord_of_fieldsFit (hw.structType id) (hr.structType b) hfields
      hsend h hnesting fun f hf x hx g hg htag =>
        ih f hf x hx (hfields.shared f hf g hg htag) (hnesting _ x hx)
          fun hmisfit => hfit (.field hg (htag ▸ hx) hmisfit)
    exact ⟨_, _, isBlock_wideBlock hlen, hrecord,
      Value.arrive_struct r scalar (hr.structType b) record⟩
  | @array item items part hcount h ih =>
    obtain ⟨depth, rfl, hitems⟩ := Value.nesting_array_le_iff.mp hdepth
    rcases hsim.alike _ _ hab with ⟨_ | _ | _ | hrel⟩
    rename_i b
    have hread : Items (Body r depth) b (items.flatMap fun x => (part x).bytes .zero)
        (items.map fun x => x.arrive r scalar b) :=
      items_flatMap fun x hx => ih x hx hrel (hitems x hx) fun hmisfit => hfit (.item hx hmisfit)
    have hcounted : Bytes.toNat (Bytes.ofNat 4 items.length) =
        (items.map fun x => x.arrive r scalar b).length := by
      rw [Bytes.toNat_ofNat_of_lt hcount, List.length_map]
    exact ⟨_, _, _, rfl, rfl, Bytes.length_ofNat 4 _, hcounted, hread,
      Value.arrive_array r scalar b items⟩

/-- The same for a value that stands by itself. -/
theorem WritesPayload.isPayload_arrive {a : TypeRef} {v : Value} {bytes : Bytes}
    (h : WritesPayload w a v bytes) {b : TypeRef} (hab : rel a b) {depth : Nat}
    (hdepth : v.nestingAt a ≤ depth) (hfit : ¬ Misfit r refuses b v) :
    IsPayload r depth b bytes (v.arrive r scalar b) := by
  have hr := hsim.reader
  cases h with
  | @struct id record part hsend h =>
    have hnesting := Value.nestingAt_struct_le_iff.mp hdepth
    rcases hsim.alike _ _ hab with ⟨_ | _ | _ | _ | _ | hfields⟩
    rename_i b
    have hrecord := isRecord_of_fieldsFit (hsim.writer.structType id) (hr.structType b)
      hfields hsend h hnesting fun f hf x hx g hg htag =>
        (h f hf x hx).body_arrive hsim (hfields.shared f hf g hg htag) (hnesting _ x hx)
          fun hmisfit => hfit (.field hg (htag ▸ hx) hmisfit)
    rw [Value.arrive_struct r scalar (hr.structType b) record]
    exact .struct hrecord
  | @union id active payload v part hv h =>
    have hpayload := Value.nestingAt_union_le_iff.mp hdepth
    rcases hsim.alike _ _ hab with ⟨_ | _ | _ | _ | hvariants⟩
    obtain ⟨u, hu, hrel⟩ := exists_variant_of_fits hr hvariants hv
    have hbody := h.body_arrive hsim hrel hpayload fun hmisfit => hfit (.payload hu hmisfit)
    rw [Value.arrive_union r scalar hu payload]
    exact .union (.mk (isHeader_header _ _) hu hbody)
  | member hstruct hunion h =>
    rw [Value.nestingAt_of_ne hstruct hunion] at hdepth
    have hbody := h.body_arrive hsim hab hdepth hfit
    refine .member ?_ ?_ (isHeader_header _ _) hbody
    · rintro id rfl
      rcases hsim.alike _ _ hab with ⟨_ | _ | _ | _ | _ | _⟩
      exact hstruct _ rfl
    · rintro id rfl
      rcases hsim.alike _ _ hab with ⟨_ | _ | _ | _ | _⟩
      exact hunion _ rfl

end

end Codec

end SchemaRpc
