/-
# Appended fields

Fields that are optional or have a default can be appended to structs and parameter lists.  A
reader that has them leaves them absent or fills in their defaults when they are not sent, and one
that does not passes over them; all other members keep their tags, so they find each other.

* `Seen` says what a reader makes of a value when its structs and those of the writer have some
  fields in common,
* `Encodable.seen_project` says that this is what arrives,
* `decode_of_growsInto` draws from it that appending fields is compatible in both directions.
-/
import SchemaRpc.Proofs.Codec.Encodable
import SchemaRpc.Proofs.Codec.Versions
import SchemaRpc.Proofs.Schema.Growth

namespace SchemaRpc

namespace Codec

/-! ## What a reader sees -/

/-- What a reader makes of the state of a field that it has: what is sent arrives as it was sent,
and what is not sent is filled in. -/
inductive Arrives (g : Schema.Field) : FieldState → FieldState → Prop where
  | present (x y : Value) : Arrives g (.present x) (.present y)
  | null : Arrives g .null .null
  | unsent {state : FieldState} (h : state.isSent = false) : Arrives g state (g.fill .absent)

/-- What a reader makes of a value: scalars and shapes stay as they are, a field that writer and
reader share arrives, one that only the reader has is filled in, and all others are dropped. -/
inductive Seen (w r : Schema) : TypeRef → TypeRef → Value → Value → Prop where
  | prim (p : Primitive) (v : Value) : Seen w r (.prim p) (.prim p) v v
  | enum (i j : Nat) (n : IntKind.i32.Ranged) : Seen w r (.enum i) (.enum j) (.enum n) (.enum n)
  | union {i j : Nat} {v u : Schema.Variant} {x y : Value}
    (hv : v ∈ (w.unionType i).variants) (hu : u ∈ (r.unionType j).variants) (htag : u.tag = v.tag)
    (h : Seen w r v.type u.type x y) :
    Seen w r (.union i) (.union j) (.union v.tag x) (.union v.tag y)
  | array {a b : TypeRef} {items items' : List Value} (hlength : items'.length = items.length)
    (h : ∀ (k : Nat) (x y : Value), items[k]? = some x → items'[k]? = some y →
      Seen w r a b x y) :
    Seen w r (.array a) (.array b) (.array items) (.array items')
  | struct {i j : Nat} {record record' : Record}
    (shared : ∀ f ∈ (w.structType i).fields, ∀ g ∈ (r.structType j).fields, g.tag = f.tag →
      Arrives g (record.get f.tag) (record'.get f.tag))
    (sent : ∀ f ∈ (w.structType i).fields, ∀ g ∈ (r.structType j).fields, g.tag = f.tag →
      ∀ x y, record.get f.tag = .present x → record'.get f.tag = .present y →
        Seen w r f.type g.type x y)
    (added : ∀ g ∈ (r.structType j).fields, (∀ f ∈ (w.structType i).fields, f.tag ≠ g.tag) →
      record'.get g.tag = g.fill .absent)
    (dropped : ∀ t, (∀ g ∈ (r.structType j).fields, g.tag ≠ t) → record'.get t = .absent) :
    Seen w r (.struct i) (.struct j) (.struct record) (.struct record')

section

variable {w r : Schema} {rel : TypeRef → TypeRef → Prop} (hr : r.Ascends)
  (hfits : ∀ a b, rel a b → Fits w r rel a b)
  (hprim : ∀ p b, rel (.prim p) b → b = .prim p)

lemma arrives_fill (g : Schema.Field) (state : FieldState) (see : Value → Value) :
    Arrives g state (g.fill (state.mapPresent see)) := by
  cases state with
  | present x => exact .present x (see x)
  | null => exact .null
  | defaulted d => exact .unsent rfl
  | absent => exact .unsent rfl

lemma eq_of_fill_mapPresent {g : Schema.Field} {state : FieldState}
    {see : Value → Value} {x y : Value} (hx : state = .present x)
    (hy : g.fill (state.mapPresent see) = .present y) : y = see x := by
  subst hx
  exact (FieldState.present.inj hy).symm

include hr hfits hprim

/-- What arrives of a value that can be encoded is what the reader should see. -/
theorem Encodable.seen_project {a b : TypeRef} {v : Value} (h : Encodable w a v) (hab : rel a b) :
    Seen w r a b v (v.project r b) := by
  induction h generalizing b with
  | bool x | f32 x | f64 x | string x | bytes x =>
    rw [hprim _ _ hab]
    exact .prim _ _
  | int k n =>
    rw [hprim _ _ hab, Value.project, Value.arrive, retype_int n n.holds]
    exact .prim _ _
  | enum hc =>
    rcases hfits _ _ hab with _ | _ | _
    exact .enum _ _ _
  | @union id active v payload hv h ih =>
    rcases hfits _ _ hab with _ | _ | _ | _ | hvariants
    obtain ⟨hmem, rfl⟩ := Schema.UnionType.mem_of_variantByTag? hv
    obtain ⟨u, hu, htag, hrel⟩ := hvariants v hmem
    have hfind := (hr.unionType _).variantByTag?_tag hu
    rw [htag] at hfind
    rw [Value.project, Value.arrive_union r _ hfind]
    exact .union hmem hu htag (ih hrel)
  | @struct id record hsend h ih =>
    rcases hfits _ _ hab with _ | _ | _ | _ | _ | hfields
    rename_i j
    have hreader := hr.structType j
    rw [Value.project, Value.arrive_struct r _ hreader]
    refine .struct (fun f hf g hg htag => ?_) (fun f hf g hg htag x y hx hy => ?_)
      (fun g hg hnew => ?_) fun t ht => ?_
    · rw [← htag, hreader.get_recordOf _ hg]
      exact arrives_fill g _ _
    · rw [← htag, hreader.get_recordOf _ hg, htag] at hy
      rw [eq_of_fill_mapPresent hx hy]
      exact ih f hf x hx (hfields.shared f hf g hg htag.symm)
    · -- the writer has no such field, so its record has no state for it
      have habsent : record.get g.tag = .absent := by
        by_contra hstored
        obtain ⟨f, hf⟩ := Option.isSome_iff_exists.mp
          (hsend.declared _ ((Record.mem_tags_iff _ _).mpr hstored))
        obtain ⟨hf, htag⟩ := Schema.StructType.mem_of_fieldByTag? hf
        exact hnew f hf htag
      rw [hreader.get_recordOf _ hg, habsent]
      rfl
    · exact hreader.get_recordOf_of_none _ (hreader.fieldByTag?_eq_none_iff.mpr ht)
  | @array item items h ih =>
    rcases hfits _ _ hab with _ | _ | _ | hrel
    rw [Value.project, Value.arrive_array]
    refine .array (List.length_map _) fun k x y hx hy => ?_
    rw [List.getElem?_map, hx] at hy
    cases hy
    exact ih x (List.mem_of_getElem? hx) hrel

end

/-! ## Growth is compatible -/

section

open Schema (SameNames Continues Matches)

variable {s s' : Schema} (hs' : s'.Ascends)
  (h : Continues (fun f => f.isMandatory = false) s s')

include hs' h

/-- What is written under the old schema fits the new one. -/
lemma fits_of_continues {a b : TypeRef} (hab : SameNames s s' a b) :
    Fits s s' (SameNames s s') a b := by
  cases hab with
  | prim p => exact .prim p
  | enum hi hj => exact .enum fun n hn => h.enum _ _ (.enum hi hj) ▸ hn
  | array hab => exact .array hab
  | union hi hj =>
    refine .union fun v hv => ?_
    obtain ⟨u, hu, hkeeps⟩ := (h.union _ _ (.union hi hj)).2.kept v hv
    exact ⟨u, hu, hkeeps.tag, hkeeps.type⟩
  | @struct i j _ hi hj =>
    have hmatches := (h.struct _ _ (.struct hi hj)).2
    have hshared {f g : Schema.Field} (hf : f ∈ (s.structType i).fields)
        (hg : g ∈ (s'.structType j).fields) (htag : f.tag = g.tag) :
        f.Keeps (SameNames s s') g := by
      obtain ⟨g', hg', hkeeps⟩ := hmatches.kept f hf
      rwa [(hs'.structType j).eq_of_tag_eq hg hg' (htag.symm.trans hkeeps.tag.symm)]
    refine .struct ⟨fun f hf g hg htag => (hshared hf hg htag).type, fun f hf g hg htag hf' => ?_,
      fun g hg hmandatory => ?_⟩
    · rwa [(hshared hf hg htag).optional]
    · rcases hmatches.others g hg with ⟨f, hf, hkeeps⟩ | hextra
      · exact ⟨f, hf, hkeeps.tag.symm, by rwa [← hkeeps.isMandatory]⟩
      · rw [hextra] at hmandatory
        cases hmandatory

/-- What is written under the new schema fits the old one. -/
lemma fits_of_continues_flip {a b : TypeRef} (hab : SameNames s s' a b) :
    Fits s' s (fun b a => SameNames s s' a b) b a := by
  cases hab with
  | prim p => exact .prim p
  | enum hi hj => exact .enum fun n hn => h.enum _ _ (.enum hi hj) ▸ hn
  | array hab => exact .array hab
  | union hi hj =>
    refine .union fun u hu => ?_
    rcases (h.union _ _ (.union hi hj)).2.others u hu with ⟨v, hv, hkeeps⟩ | hextra
    · exact ⟨v, hv, hkeeps.tag.symm, hkeeps.type⟩
    · cases hextra
  | @struct i j _ hi hj =>
    have hmatches := (h.struct _ _ (.struct hi hj)).2
    have hshared {g f : Schema.Field} (hg : g ∈ (s'.structType j).fields)
        (hf : f ∈ (s.structType i).fields) (htag : g.tag = f.tag) :
        f.Keeps (SameNames s s') g := by
      obtain ⟨g', hg', hkeeps⟩ := hmatches.kept f hf
      rwa [(hs'.structType j).eq_of_tag_eq hg hg' (htag.trans hkeeps.tag.symm)]
    refine .struct ⟨fun g hg f hf htag => (hshared hg hf htag).type, fun g hg f hf htag hg' => ?_,
      fun f hf hmandatory => ?_⟩
    · rwa [← (hshared hg hf htag).optional]
    · obtain ⟨g, hg, hkeeps⟩ := hmatches.kept f hf
      exact ⟨g, hg, hkeeps.tag, by rwa [hkeeps.isMandatory]⟩

omit hs' h in
lemma eq_prim_of_sameNames {p : Primitive} {b : TypeRef} (hb : SameNames s s' (.prim p) b) :
    b = .prim p := by
  cases hb
  rfl

end

/-- **Appending fields.**  If a package grows by fields that need not be sent, and by other
declarations, then its members keep their tags; and what is encoded at a type under one of the two
schemas can be decoded at the type of the same name under the other.  A reader with the new schema
sees the value with the new fields filled in, one with the old schema sees it without them, in
every struct that the value contains. -/
theorem decode_of_growsInto {p p' : Package} {s s' : Schema} (hp : Schema.resolve p = .ok s)
    (hp' : Schema.resolve p' = .ok s') (h : p.GrowsInto Package.Field.Omissible p') :
    Schema.Continues (fun f => f.isMandatory = false) s s' ∧
      ∀ a b, Schema.SameNames s s' a b → ∀ (v : Value) (bytes : Bytes) (limits : Limits),
        bytes.length ≤ limits.maxPayload →
          (encode s v a = .ok bytes → v.nestingAt a ≤ limits.maxDepth →
            ∃ v', decode s' limits bytes b = .ok v' ∧ Seen s s' a b v v') ∧
          (encode s' v b = .ok bytes → v.nestingAt b ≤ limits.maxDepth →
            ∃ v', decode s limits bytes a = .ok v' ∧ Seen s' s b a v v') := by
  have hs := Schema.ascends_of_resolve hp
  have hs' := Schema.ascends_of_resolve hp'
  have hcontinues : Schema.Continues (fun f => f.isMandatory = false) s s' :=
    Schema.continues_of_growsInto (Schema.resolve_madeFrom hp) (Schema.resolve_madeFrom hp') h
      fun _ _ => Schema.isMandatory_of_omissible
  refine ⟨hcontinues, fun a b hab v bytes limits hlen => ⟨fun hencode hdepth => ?_,
    fun hencode hdepth => ?_⟩⟩
  · have hfits := fun a b => fits_of_continues hs' hcontinues (a := a) (b := b)
    have hwritten := (encode_eq_ok_iff hs).mp hencode
    exact ⟨_, (decode_eq_ok_iff hs').mpr ⟨hlen, hwritten.isPayload hs hs' hfits hab hdepth⟩,
      hwritten.encodable.seen_project hs' hfits (fun _ _ => eq_prim_of_sameNames) hab⟩
  · have hfits := fun b a => fits_of_continues_flip hs' hcontinues (a := a) (b := b)
    have hwritten := (encode_eq_ok_iff hs').mp hencode
    exact ⟨_, (decode_eq_ok_iff hs).mpr ⟨hlen, hwritten.isPayload hs' hs hfits hab hdepth⟩,
      hwritten.encodable.seen_project hs hfits
        (fun _ _ hba => eq_prim_of_sameNames hba.symm) hab⟩

/-- A later package of the desk: a parcel can be fragile, its weight may come with a stamp, and
stamps are declared in front of everything else. -/
def laterDesk : Package := ⟨"desk", [
  .struct "Stamp" [⟨"price", .named "u16", false, none, none⟩] [],
  .module "Office" [⟨"front", "Desk", none⟩],
  .interface "Desk" [
    ⟨"weigh", none, [⟨"id", .named "u32", false, none, none⟩,
        ⟨"size", .named "Size", false, none, some (.string "large")⟩,
        ⟨"fragile", .named "bool", false, none, some (.bool false)⟩],
      some [⟨"weight", .named "u16", false, none, none⟩,
        ⟨"stamp", .named "Stamp", true, none, none⟩],
      some [⟨"reason", .named "string", false, none, none⟩]⟩,
    ⟨"close", some (.ofNat 7), [], none, none⟩],
  .enum "Size" [⟨"small", none⟩, ⟨"large", none⟩]]⟩

/-- The schema of the later package of the desk. -/
def laterDeskSchema : Schema where
  package := "desk"
  fingerprint := Schema.fingerprintOf laterDesk
  enums := Schema.deskSchema.enums
  unions := []
  structs := [
    ⟨"Stamp", [⟨"price", .ofNat 1, .prim (.int .u16), false, none⟩]⟩,
    ⟨"Desk.weighArgs", [⟨"id", .ofNat 1, .prim (.int .u32), false, none⟩,
      ⟨"size", .ofNat 2, .enum 0, false, some (.enum Schema.large)⟩,
      ⟨"fragile", .ofNat 3, .prim .bool, false, some (.bool false)⟩]⟩,
    ⟨"Desk.weighRes", [⟨"weight", .ofNat 1, .prim (.int .u16), false, none⟩,
      ⟨"stamp", .ofNat 2, .struct 0, true, none⟩]⟩,
    ⟨"Desk.weighExn", [⟨"reason", .ofNat 1, .prim .string, false, none⟩]⟩,
    ⟨"Desk.closeArgs", []⟩]
  interfaces := [⟨"Desk", [⟨"weigh", .ofNat 1, 1, some 2, some 3⟩,
    ⟨"close", .ofNat 7, 4, none, none⟩]⟩]
  modules := [⟨"Office", [⟨"front", .ofNat 1, 0⟩]⟩]
  typeNames := [("Stamp", .struct 0), ("Size", .enum 0), ("Desk.weighArgs", .struct 1),
    ("Desk.weighRes", .struct 2), ("Desk.weighExn", .struct 3), ("Desk.closeArgs", .struct 4)]
  interfaceNames := [("Desk", 0)]

lemma resolve_laterDesk : Schema.resolve laterDesk = .ok laterDeskSchema := by rfl

lemma desk_growsInto_laterDesk :
    Schema.desk.GrowsInto Package.Field.Omissible laterDesk := by
  have hweigh : (Package.Method.mk "weigh" none [⟨"id", .named "u32", false, none, none⟩,
        ⟨"size", .named "Size", false, none, some (.string "large")⟩]
      (some [⟨"weight", .named "u16", false, none, none⟩])
      (some [⟨"reason", .named "string", false, none, none⟩])).GrowsInto
        Package.Field.Omissible
      ⟨"weigh", none, [⟨"id", .named "u32", false, none, none⟩,
          ⟨"size", .named "Size", false, none, some (.string "large")⟩,
          ⟨"fragile", .named "bool", false, none, some (.bool false)⟩],
        some [⟨"weight", .named "u16", false, none, none⟩,
          ⟨"stamp", .named "Stamp", true, none, none⟩],
        some [⟨"reason", .named "string", false, none, none⟩]⟩ :=
    ⟨rfl, rfl, ⟨_, rfl, by simp [Package.Field.Omissible]⟩,
      .some ⟨_, rfl, by simp [Package.Field.Omissible]⟩, .some (Package.fieldsGrow_refl _)⟩
  intro d hd
  simp only [Schema.desk, List.mem_cons, List.not_mem_nil, or_false] at hd
  rcases hd with rfl | rfl | rfl
  · exact ⟨_, .tail _ (.head _), .module _ _⟩
  · exact ⟨_, .tail _ (.tail _ (.head _)), .interface _
      (.cons hweigh (.cons (Package.Method.growsInto_refl _) .nil))⟩
  · exact ⟨_, .tail _ (.tail _ (.tail _ (.head _))), .enum _ _⟩

/-- The arguments of a weighing. -/
def weighing (size fragile : FieldState) : Value :=
  .struct (Record.ofList [(.ofNat 1, .present (.int .u32 ⟨7, by decide⟩)), (.ofNat 2, size),
    (.ofNat 3, fragile)])

/-- The arguments of a weighing are understood by later desks, and those of a later weighing by
earlier desks. -/
theorem decode_of_growsInto_desk :
    Schema.resolve Schema.desk = .ok Schema.deskSchema ∧
    Schema.resolve laterDesk = .ok laterDeskSchema ∧
    Schema.desk.GrowsInto Package.Field.Omissible laterDesk ∧
    (encode Schema.deskSchema (weighing .absent .absent) (.struct 0) = .ok [129, 7] ∧
      ∃ v, decode laterDeskSchema .default [129, 7] (.struct 1) = .ok v ∧
        Seen Schema.deskSchema laterDeskSchema (.struct 0) (.struct 1)
          (weighing .absent .absent) v) ∧
    (encode laterDeskSchema (weighing .absent (.present (.bool true))) (.struct 1) =
        .ok [129, 7, 131, 1] ∧
      ∃ v, decode Schema.deskSchema .default [129, 7, 131, 1] (.struct 0) = .ok v ∧
        Seen laterDeskSchema Schema.deskSchema (.struct 1) (.struct 0)
          (weighing .absent (.present (.bool true))) v) := by
  obtain ⟨-, hdecode⟩ :=
    decode_of_growsInto Schema.resolve_desk resolve_laterDesk desk_growsInto_laterDesk
  have hnames : Schema.SameNames Schema.deskSchema laterDeskSchema (.struct 0) (.struct 1) :=
    .struct rfl rfl
  have hold : encode Schema.deskSchema (weighing .absent .absent) (.struct 0) =
      .ok [129, 7] := by rfl
  have hnew : encode laterDeskSchema (weighing .absent (.present (.bool true))) (.struct 1) =
      .ok [129, 7, 131, 1] := by rfl
  exact ⟨Schema.resolve_desk, resolve_laterDesk, desk_growsInto_laterDesk,
    ⟨hold, (hdecode _ _ hnames _ _ .default (by decide)).1 hold (by decide)⟩,
    ⟨hnew, (hdecode _ _ hnames _ _ .default (by decide)).2 hnew (by decide)⟩⟩

end Codec

end SchemaRpc
