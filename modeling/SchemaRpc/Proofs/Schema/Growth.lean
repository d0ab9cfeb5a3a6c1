/-
# Packages that grow

A package grows into another one that has its declarations, maybe with fields appended to structs
and parameter lists, and any others besides.  The two schemas then have the same types under the
same names, at whatever positions, and what the first declares keeps its tag: tags are given in
the order of declaration, and what is appended comes last.

* `Package.GrowsInto` says that a package grows, given what may be appended,
* `Made.matches` compares the members of one owner in the two schemas,
* `continues_of_growsInto` compares the schemas part by part.
-/
import SchemaRpc.Proofs.Schema.Renumbering
import SchemaRpc.Proofs.Schema.WellFormed

namespace SchemaRpc

namespace Package

section

variable (extra : Field → Prop)

/-- A field list with fields appended. -/
def FieldsGrow (fields fields' : List Field) : Prop :=
  ∃ more, fields' = fields ++ more ∧ ∀ f ∈ more, extra f

/-- A method with fields appended to its parameter lists; it has the same ones. -/
structure Method.GrowsInto (m m' : Method) : Prop where
  name : m'.name = m.name
  tag : m'.tag = m.tag
  input : FieldsGrow extra m.input m'.input
  output : Option.Rel (FieldsGrow extra) m.output m'.output
  failure : Option.Rel (FieldsGrow extra) m.failure m'.failure

/-- A declaration with fields appended to its field lists. -/
inductive Declaration.GrowsInto : Declaration → Declaration → Prop where
  | enum (name : String) (labels : List Label) : GrowsInto (.enum name labels) (.enum name labels)
  | union (name : String) (variants : List Variant) (reserved : List Tag) :
    GrowsInto (.union name variants reserved) (.union name variants reserved)
  | struct (name : String) {fields fields' : List Field} (reserved : List Tag)
    (h : FieldsGrow extra fields fields') :
    GrowsInto (.struct name fields reserved) (.struct name fields' reserved)
  | interface (name : String) {methods methods' : List Method}
    (h : List.Forall₂ (Method.GrowsInto extra) methods methods') :
    GrowsInto (.interface name methods) (.interface name methods')
  | module (name : String) (members : List Member) :
    GrowsInto (.module name members) (.module name members)

end

/-- Every declaration of a package is one of the other, maybe with fields appended. -/
def GrowsInto (extra : Field → Prop) (p p' : Package) : Prop :=
  ∀ d ∈ p.declarations, ∃ d' ∈ p'.declarations, d.GrowsInto extra d'

/-- The field need not be sent: it is optional or has a default. -/
def Field.Omissible (f : Field) : Prop := f.optional ∨ f.literal.isSome

/-- What declares members, with others appended to them. -/
structure Owner.GrowsInto {α : Type} (members : List α → List α → Prop) (o o' : Owner α) :
    Prop where
  name : o'.name = o.name
  reserved : o'.reserved = o.reserved
  members : members o.members o'.members

section

variable {extra : Field → Prop}

lemma fieldsGrow_refl (fields : List Field) : FieldsGrow extra fields fields :=
  ⟨[], (List.append_nil fields).symm, List.forall_mem_nil _⟩

lemma Method.growsInto_refl (m : Method) : m.GrowsInto extra m := by
  have hrefl (fields : Option (List Field)) : Option.Rel (FieldsGrow extra) fields fields := by
    cases fields with
    | none => exact .none
    | some fields => exact .some (fieldsGrow_refl fields)
  exact ⟨rfl, rfl, fieldsGrow_refl _, hrefl _, hrefl _⟩

lemma Declaration.growsInto_refl (d : Declaration) : d.GrowsInto extra d := by
  cases d with
  | enum name labels => exact .enum name labels
  | union name variants reserved => exact .union name variants reserved
  | struct name fields reserved => exact .struct name reserved (fieldsGrow_refl fields)
  | interface name methods =>
    exact .interface name (List.forall₂_same.mpr fun m _ => m.growsInto_refl)
  | module name members => exact .module name members

/-- A package grows into one with its declarations in any order. -/
lemma growsInto_of_subset {p p' : Package} (h : p.declarations ⊆ p'.declarations) :
    p.GrowsInto extra p' := fun d hd => ⟨d, h hd, d.growsInto_refl⟩

end

end Package

namespace Schema

open Package

/-! ## What declares members -/

section

variable {extra : Package.Field → Prop} {p p' : Package} (h : p.GrowsInto extra p')
include h

/-- Owners of one kind persist if those of a declaration do. -/
lemma exists_owner_of_growsInto {α : Type}
    {owner? : Package.Declaration → Option (Owner α)} {R : Owner α → Owner α → Prop}
    (howner : ∀ d d', d.GrowsInto extra d' → ∀ o ∈ owner? d, ∃ o' ∈ owner? d', R o o')
    {o : Owner α} (ho : o ∈ p.declarations.filterMap owner?) :
    ∃ o' ∈ p'.declarations.filterMap owner?, R o o' := by
  obtain ⟨d, hd, hdo⟩ := List.mem_filterMap.mp ho
  obtain ⟨d', hd', hgrows⟩ := h d hd
  obtain ⟨o', ho', hR⟩ := howner d d' hgrows o hdo
  exact ⟨o', List.mem_filterMap.mpr ⟨d', hd', ho'⟩, hR⟩

lemma exists_enum_of_growsInto {o : Owner Package.Label}
    (ho : o ∈ p.declarations.filterMap declaredEnum?) :
    ∃ o' ∈ p'.declarations.filterMap declaredEnum?, o = o' := by
  refine exists_owner_of_growsInto h (fun d d' hgrows o ho => ?_) ho
  cases hgrows with
  | enum name labels => exact ⟨o, ho, rfl⟩
  | _ => cases ho

lemma exists_union_of_growsInto {o : Owner Package.Variant}
    (ho : o ∈ p.declarations.filterMap declaredUnion?) :
    ∃ o' ∈ p'.declarations.filterMap declaredUnion?, o = o' := by
  refine exists_owner_of_growsInto h (fun d d' hgrows o ho => ?_) ho
  cases hgrows with
  | union name variants reserved => exact ⟨o, ho, rfl⟩
  | _ => cases ho

lemma exists_module_of_growsInto {o : Owner Package.Member}
    (ho : o ∈ p.declarations.filterMap declaredModule?) :
    ∃ o' ∈ p'.declarations.filterMap declaredModule?, o = o' := by
  refine exists_owner_of_growsInto h (fun d d' hgrows o ho => ?_) ho
  cases hgrows with
  | module name members => exact ⟨o, ho, rfl⟩
  | _ => cases ho

lemma exists_interface_of_growsInto {o : Owner Package.Method}
    (ho : o ∈ p.declarations.filterMap declaredInterface?) :
    ∃ o' ∈ p'.declarations.filterMap declaredInterface?,
      o.GrowsInto (List.Forall₂ (Package.Method.GrowsInto extra)) o' := by
  refine exists_owner_of_growsInto h (fun d d' hgrows o ho => ?_) ho
  cases hgrows with
  | interface name hmethods =>
    cases ho
    exact ⟨_, rfl, rfl, rfl, hmethods⟩
  | _ => cases ho

lemma exists_declaredStruct_of_growsInto {o : Owner Package.Field}
    (ho : o ∈ p.declarations.filterMap declaredStruct?) :
    ∃ o' ∈ p'.declarations.filterMap declaredStruct?, o.GrowsInto (FieldsGrow extra) o' := by
  refine exists_owner_of_growsInto h (fun d d' hgrows o ho => ?_) ho
  cases hgrows with
  | struct name reserved hfields =>
    cases ho
    exact ⟨_, rfl, rfl, rfl, hfields⟩
  | _ => cases ho

omit h in
/-- The parameter lists of a method persist. -/
lemma exists_methodParameters_of_growsInto {owner : String} {m m' : Package.Method}
    (hm : m.GrowsInto extra m') {o : Owner Package.Field} (ho : o ∈ methodParameters owner m) :
    ∃ o' ∈ methodParameters owner m', o.GrowsInto (FieldsGrow extra) o' := by
  -- a list that may be left out persists if it is there
  have hoptional {suffix : String} {fields fields' : Option (List Package.Field)}
      (hrel : Option.Rel (FieldsGrow extra) fields fields')
      (ho : o ∈ fields.toList.map (⟨owner ++ "." ++ m.name ++ suffix, ·, []⟩)) :
      ∃ o' ∈ fields'.toList.map (Owner.mk (owner ++ "." ++ m'.name ++ suffix) · []),
        o.GrowsInto (FieldsGrow extra) o' := by
    cases hrel with
    | none => cases ho
    | some hgrow =>
      obtain rfl := List.mem_singleton.mp ho
      exact ⟨_, List.mem_singleton_self _, by rw [hm.name], rfl, hgrow⟩
  rw [methodParameters, List.mem_cons, List.mem_append] at ho
  rcases ho with rfl | ho | ho
  · exact ⟨_, List.mem_cons_self, by rw [hm.name], rfl, hm.input⟩
  · obtain ⟨o', ho', hgrow⟩ := hoptional hm.output ho
    exact ⟨o', List.mem_cons_of_mem _ (List.mem_append_left _ ho'), hgrow⟩
  · obtain ⟨o', ho', hgrow⟩ := hoptional hm.failure ho
    exact ⟨o', List.mem_cons_of_mem _ (List.mem_append_right _ ho'), hgrow⟩

/-- The structs of a package persist, those of parameter lists included. -/
lemma exists_struct_of_growsInto {o : Owner Package.Field} (ho : o ∈ structsOf p.declarations) :
    ∃ o' ∈ structsOf p'.declarations, o.GrowsInto (FieldsGrow extra) o' := by
  rcases List.mem_append.mp ho with ho | ho
  · obtain ⟨o', ho', hgrow⟩ := exists_declaredStruct_of_growsInto h ho
    exact ⟨o', List.mem_append_left _ ho', hgrow⟩
  · obtain ⟨i, hi, ho⟩ := List.mem_flatMap.mp ho
    obtain ⟨m, hm, ho⟩ := List.mem_flatMap.mp ho
    obtain ⟨i', hi', hgrows⟩ := exists_interface_of_growsInto h hi
    obtain ⟨m', hm', hmgrows⟩ := exists_right_of_forall₂ hgrows.members m hm
    obtain ⟨o', ho', hgrow⟩ := exists_methodParameters_of_growsInto hmgrows ho
    refine ⟨o', List.mem_append_right _ (List.mem_flatMap.mpr ⟨i', hi', ?_⟩), hgrow⟩
    rw [hgrows.name]
    exact List.mem_flatMap.mpr ⟨m', hm', ho'⟩

end

/-! ## Members and their matches -/

/-- Every member of a list has a match in another one, where all others are extra. -/
structure Matches {α β : Type} (R : α → β → Prop) (extra : β → Prop) (l : List α) (l' : List β) :
    Prop where
  kept : ∀ a ∈ l, ∃ b ∈ l', R a b
  others : ∀ b ∈ l', (∃ a ∈ l, R a b) ∨ extra b

section

variable {α β : Type} {tagOf : α → Tag} {R R' : α → β → Prop} {G : β → β → Prop}
  {entry : β → String × Option Tag} {reserved : List Tag} {l l' : List α} {declared front : List β}

lemma Matches.imp {γ δ : Type} {S S' : γ → δ → Prop} {extra extra' : δ → Prop} {l : List γ}
    {l' : List δ} (h : Matches S extra l l') (himp : ∀ a b, S a b → S' a b)
    (hextra : ∀ b, extra b → extra' b) : Matches S' extra' l l' := by
  refine ⟨fun a ha => ?_, fun b hb => ?_⟩
  · obtain ⟨b, hb, hab⟩ := h.kept a ha
    exact ⟨b, hb, himp a b hab⟩
  · rcases h.others b hb with ⟨a, ha, hab⟩ | hb
    · exact .inl ⟨a, ha, himp a b hab⟩
    · exact .inr (hextra b hb)

/-- The tags of members do not depend on members behind them. -/
lemma Tagging.assignAll_append {t : Tagging} {front back : List (String × Option Tag)}
    {tags tags' : List Tag} (h : t.assignAll front = .ok tags)
    (h' : t.assignAll (front ++ back) = .ok tags') : ∃ more, tags' = tags ++ more := by
  induction front generalizing t tags tags' with
  | nil =>
    cases h
    exact ⟨tags', rfl⟩
  | cons m front ih =>
    obtain ⟨tag, t₁, rest, htag, hrest, rfl⟩ := assignAll_cons_eq_ok.mp h
    obtain ⟨tag', t₁', rest', htag', hrest', rfl⟩ := assignAll_cons_eq_ok.mp h'
    rw [htag] at htag'
    cases htag'
    obtain ⟨more, rfl⟩ := ih hrest hrest'
    exact ⟨more, rfl⟩

/-- Members with the same tags, one by one, that are made from declared ones. -/
lemma forall₂_of_tags (hl : List.Forall₂ R l declared) (hG : List.Forall₂ G declared front)
    (hl' : List.Forall₂ R' l' front) (htags : l'.map tagOf = l.map tagOf) :
    List.Forall₂ (fun a b => tagOf b = tagOf a ∧ ∃ d d', G d d' ∧ R a d ∧ R' b d') l l' := by
  induction hl generalizing front l' with
  | nil =>
    cases hG
    cases hl'
    exact .nil
  | cons ha _ ih =>
    cases hG with
    | cons hd hG =>
      cases hl' with
      | cons hb hl' =>
        obtain ⟨htag, htags⟩ := List.cons.inj htags
        exact .cons ⟨htag, _, _, hd, ha, hb⟩ (ih hG hl' htags)

/-- **Appended members come last.**  What is made from declared members has matches, with the same
tags, in what is made from them and others behind them. -/
lemma Made.matches {back : List β} (h : Made tagOf R entry reserved l declared)
    (h' : Made tagOf R' entry reserved l' (front ++ back)) (hG : List.Forall₂ G declared front)
    (hentry : ∀ d d', G d d' → entry d' = entry d) :
    Matches (fun a b => tagOf b = tagOf a ∧ ∃ d d', G d d' ∧ R a d ∧ R' b d')
      (fun b => ∃ d ∈ back, R' b d) l l' := by
  obtain ⟨m, rfl, htags, hm⟩ := h.tagged
  obtain ⟨m', rfl, htags', hm'⟩ := h'.tagged
  have hentries : front.map entry = declared.map entry :=
    (map_eq_of_forall₂ hG fun d d' hd => (hentry d d' hd).symm).symm
  rw [List.map_append, hentries] at htags'
  obtain ⟨more, hmore⟩ := Tagging.assignAll_append htags htags'
  have hfront := List.forall₂_take_append m' front back hm'
  have hback := List.forall₂_drop_append m' front back hm'
  have hlength : front.length = (m.map tagOf).length := by
    rw [List.length_map, hm.length_eq, hG.length_eq]
  have hsame : (m'.take front.length).map tagOf = m.map tagOf := by
    rw [List.map_take, hmore, hlength, List.take_left]
  have hmatch := forall₂_of_tags hm hG hfront hsame
  have hperm := sortByTag_perm tagOf m
  have hperm' := sortByTag_perm tagOf m'
  refine ⟨fun a ha => ?_, fun b hb => ?_⟩
  · obtain ⟨b, hb, hab⟩ := exists_right_of_forall₂ hmatch a (hperm.mem_iff.mp ha)
    exact ⟨b, hperm'.mem_iff.mpr (List.mem_of_mem_take hb), hab⟩
  · rw [hperm'.mem_iff, ← List.take_append_drop front.length m', List.mem_append] at hb
    rcases hb with hb | hb
    · obtain ⟨a, ha, hab⟩ := exists_right_of_forall₂ hmatch.flip b hb
      exact .inl ⟨a, hperm.mem_iff.mpr ha, hab⟩
    · exact .inr (exists_right_of_forall₂ hback b hb)

lemma Made.matches_append {back : List β} (h : Made tagOf R entry reserved l declared)
    (h' : Made tagOf R' entry reserved l' (declared ++ back)) :
    Matches (fun a b => tagOf b = tagOf a ∧ ∃ d, R a d ∧ R' b d) (fun b => ∃ d ∈ back, R' b d)
      l l' := by
  have hmatches := h.matches h' (List.forall₂_same.mpr fun d _ => Eq.refl d)
    fun d d' hd => by rw [hd]
  refine hmatches.imp ?_ fun _ hb => hb
  rintro a b ⟨htag, d, _, rfl, ha, hb⟩
  exact ⟨htag, d, ha, hb⟩

lemma Made.matches_same (h : Made tagOf R entry reserved l declared)
    (h' : Made tagOf R' entry reserved l' declared) :
    Matches (fun a b => tagOf b = tagOf a ∧ ∃ d, R a d ∧ R' b d) (fun _ => False) l l' := by
  rw [← List.append_nil declared] at h'
  refine (h.matches_append h').imp (fun _ _ hab => hab) ?_
  rintro b ⟨d, hd, -⟩
  cases hd

end

/-! ## Parts under the same names -/

lemma exists_of_getElem?_map {α β : Type} {f : α → β} {l : List α} {i : Nat} {b : β}
    (h : (l.map f)[i]? = some b) : ∃ a, l[i]? = some a ∧ f a = b := by
  rw [List.getElem?_map] at h
  exact Option.map_eq_some_iff.mp h

section

variable {α β : Type} {R R' : α → β → Prop} {G : β → β → Prop} {nameOf : α → String}
  {l l' : List α} {owners owners' : List β} (hl : List.Forall₂ R l owners)
  (hl' : List.Forall₂ R' l' owners') (hgrow : ∀ o ∈ owners, ∃ o' ∈ owners', G o o')
  (hname : ∀ a b o o', G o o' → R a o → R' b o' → nameOf b = nameOf a)

include hl hl' hgrow

lemma exists_partner {a : α} (ha : a ∈ l) : ∃ b ∈ l', ∃ o o', G o o' ∧ R a o ∧ R' b o' := by
  obtain ⟨o, ho, hao⟩ := exists_right_of_forall₂ hl a ha
  obtain ⟨o', ho', hoo'⟩ := hgrow o ho
  obtain ⟨b, hb, hbo'⟩ := exists_right_of_forall₂ hl'.flip o' ho'
  exact ⟨b, hb, o, o', hoo', hao, hbo'⟩

include hname

lemma names_subset_of_partners : l.map nameOf ⊆ l'.map nameOf := by
  intro name hmem
  obtain ⟨a, ha, rfl⟩ := List.mem_map.mp hmem
  obtain ⟨b, hb, o, o', hoo', hao, hbo'⟩ := exists_partner hl hl' hgrow ha
  exact List.mem_map.mpr ⟨b, hb, hname a b o o' hoo' hao hbo'⟩

/-- Where names are unique, the part of the same name is the partner. -/
lemma partners_of_name_eq (hnodup : (l'.map nameOf).Nodup) {i j : Nat} {name : String}
    (hi : (l.map nameOf)[i]? = some name) (hj : (l'.map nameOf)[j]? = some name) :
    ∃ a b, l[i]? = some a ∧ l'[j]? = some b ∧ ∃ o o', G o o' ∧ R a o ∧ R' b o' := by
  obtain ⟨a, ha, rfl⟩ := exists_of_getElem?_map hi
  obtain ⟨b, hb, heq⟩ := exists_of_getElem?_map hj
  obtain ⟨c, hc, o, o', hoo', hao, hco'⟩ := exists_partner hl hl' hgrow (List.mem_of_getElem? ha)
  have hcb : c = b := List.inj_on_of_nodup_map hnodup hc (List.mem_of_getElem? hb)
    ((hname a c o o' hoo' hao hco').trans heq.symm)
  exact ⟨a, b, ha, hb, o, o', hoo', hao, hcb ▸ hco'⟩

end

/-- Enums of one name have the same declaration, and so they are equal. -/
lemma enum_eq_of_name_eq {enums enums' : List EnumType}
    {owners owners' : List (Owner Package.Label)}
    (h : List.Forall₂ (fun e d => resolveEnum d.name d.members = .ok e) enums owners)
    (h' : List.Forall₂ (fun e d => resolveEnum d.name d.members = .ok e) enums' owners')
    (hsub : ∀ o ∈ owners, o ∈ owners') (hnodup : (enums'.map (·.name)).Nodup) {i j : Nat}
    {name : String} (hi : (enums.map (·.name))[i]? = some name)
    (hj : (enums'.map (·.name))[j]? = some name) : enums[i]? = enums'[j]? := by
  obtain ⟨e, e', he, he', o, _, rfl, hmade, hmade'⟩ := partners_of_name_eq h h'
    (fun o ho => ⟨o, hsub o ho, Eq.refl o⟩)
    (fun _ _ _ _ ho he he' => by
      rw [(resolveEnum_eq_ok he).name, (resolveEnum_eq_ok he').name, ho])
    hnodup hi hj
  rw [hmade] at hmade'
  rw [he, he', Except.ok.inj hmade']

section

variable (rel : TypeRef → TypeRef → Prop)

/-- A field whose type may have moved, and nothing else. -/
structure Field.Keeps (f g : Field) : Prop where
  name : g.name = f.name
  tag : g.tag = f.tag
  type : rel f.type g.type
  optional : g.optional = f.optional
  default : g.default = f.default

/-- A variant whose type may have moved, and nothing else. -/
structure Variant.Keeps (v u : Variant) : Prop where
  name : u.name = v.name
  tag : u.tag = v.tag
  type : rel v.type u.type

/-- A method whose parameter lists may have moved, and nothing else. -/
structure Method.Keeps (m n : Method) : Prop where
  name : n.name = m.name
  tag : n.tag = m.tag
  args : rel (.struct m.args) (.struct n.args)
  reply : Option.Rel (fun i j => rel (.struct i) (.struct j)) m.reply n.reply
  exception : Option.Rel (fun i j => rel (.struct i) (.struct j)) m.exception n.exception

/-- A member of a module whose interface may have moved, but keeps its name. -/
structure Member.Keeps (s s' : Schema) (m n : Member) : Prop where
  name : n.name = m.name
  tag : n.tag = m.tag
  interface : (s'.interfaceType n.interface).name = (s.interfaceType m.interface).name

end

lemma isMandatory_of_omissible {types : List (String × TypeRef)} {enums : List EnumType}
    {g : Field} {d : Package.Field} (hd : d.Omissible) (hg : g.Represents types enums d) :
    g.isMandatory = false := by
  rw [Field.isMandatory, hg.optional]
  rcases hd with hoptional | hliteral
  · rw [hoptional]
    rfl
  · have hdefault := hg.default
    obtain ⟨literal, hl⟩ := Option.isSome_iff_exists.mp hliteral
    rw [hl] at hdefault
    generalize g.default = default at hdefault ⊢
    cases hdefault
    exact Bool.and_false _

lemma eq_of_rel {α β : Type} {R : α → β → Prop} (hR : ∀ a a' b, R a b → R a' b → a = a')
    {a a' : Option α} {b : Option β} (h : Option.Rel R a b) (h' : Option.Rel R a' b) : a = a' := by
  cases h with
  | none =>
    cases h'
    rfl
  | some h =>
    cases h' with
    | some h' => rw [hR _ _ _ h h']

lemma Field.Keeps.isMandatory {rel : TypeRef → TypeRef → Prop} {f g : Field} (h : f.Keeps rel g) :
    g.isMandatory = f.isMandatory := by
  rw [Field.isMandatory, Field.isMandatory, h.optional, h.default]

/-- The types of two schemas that have the same names. -/
def SameNames (s s' : Schema) : TypeRef → TypeRef → Prop := Renumbered s.layout s'.layout

/-- What a schema declares, another one declares under the same names and tags, and in its structs
maybe extra fields as well. -/
structure Continues (extra : Field → Prop) (s s' : Schema) : Prop where
  type : ∀ name a, s.type? name = some a → ∃ b, s'.type? name = some b ∧ SameNames s s' a b
  enum : ∀ i j, SameNames s s' (.enum i) (.enum j) → s'.enumType j = s.enumType i
  union : ∀ i j, SameNames s s' (.union i) (.union j) →
    (s'.unionType j).name = (s.unionType i).name ∧
      Matches (Variant.Keeps (SameNames s s')) (fun _ => False) (s.unionType i).variants
        (s'.unionType j).variants
  struct : ∀ i j, SameNames s s' (.struct i) (.struct j) →
    (s'.structType j).name = (s.structType i).name ∧
      Matches (Field.Keeps (SameNames s s')) extra (s.structType i).fields
        (s'.structType j).fields
  interface : ∀ name i, s.interface? name = some i → ∃ i', s'.interface? name = some i' ∧
    i'.name = i.name ∧
      Matches (Method.Keeps (SameNames s s')) (fun _ => False) i.methods i'.methods
  module : ∀ name m, s.module? name = some m → ∃ m', s'.module? name = some m' ∧
    m'.name = m.name ∧ Matches (Member.Keeps s s') (fun _ => False) m.members m'.members

section

variable {p : Package} {s : Schema} (hs : s.MadeFrom p)
include hs

/-- Where a parameter list stands, the struct has its name. -/
lemma MadeFrom.layout_of_standsIn {id : Nat} {o : Owner Package.Field}
    (ho : StandsIn (structsOf p.declarations) id o) :
    (s.layout .struct)[id]? = some o.name := by
  have hnames : s.layout .struct = (structsOf p.declarations).map (·.name) :=
    map_eq_of_forall₂ hs.structs fun _ _ ht => ht.name
  rw [hnames, List.getElem?_map, ho]
  rfl

/-- A member of a module refers to the interface of the declared name. -/
lemma MadeFrom.interfaceType_name {m : Member} {d : Package.Member}
    (hm : m.Represents s.interfaceNames d) : (s.interfaceType m.interface).name = d.interface := by
  obtain ⟨_, hdescribes⟩ := hs.describes
  obtain ⟨i, hi, hname⟩ :=
    exists_of_getElem?_map ((hdescribes.interfaces _ _).mp hm.interface)
  rw [interfaceType, hi]
  exact hname

end

section

variable {extra : Package.Field → Prop} {p p' : Package} {s s' : Schema} (hs : s.MadeFrom p)
  (hs' : s'.MadeFrom p') (h : p.GrowsInto extra p')

include hs hs' h

/-- Names stay in the lists that they are in. -/
lemma within_of_growsInto : s.layout.Within s'.layout := by
  intro a
  cases a with
  | enum =>
    exact names_subset_of_partners hs.enums hs'.enums (fun o => exists_enum_of_growsInto h)
      fun _ _ _ _ ho he he' => by rw [(resolveEnum_eq_ok he).name, (resolveEnum_eq_ok he').name, ho]
  | union =>
    exact names_subset_of_partners hs.unions hs'.unions (fun o => exists_union_of_growsInto h)
      fun _ _ _ _ ho hu hu' => by rw [hu.name, hu'.name, ho]
  | struct =>
    exact names_subset_of_partners hs.structs hs'.structs (fun o => exists_struct_of_growsInto h)
      fun _ _ _ _ ho ht ht' => by rw [ht.name, ht'.name, ho.name]
  | interface =>
    exact names_subset_of_partners hs.interfaces hs'.interfaces
      (fun o => exists_interface_of_growsInto h)
      fun _ _ _ _ ho hi hi' => by rw [hi.name, hi'.name, ho.name]
  | module =>
    exact names_subset_of_partners hs.modules hs'.modules (fun o => exists_module_of_growsInto h)
      fun _ _ _ _ ho hm hm' => by rw [hm.name, hm'.name, ho]

lemma enum_eq_of_growsInto {i j : Nat} (hij : SameNames s s' (.enum i) (.enum j)) :
    s.enums[i]? = s'.enums[j]? := by
  obtain ⟨_, hdescribes'⟩ := hs'.describes
  cases hij with
  | enum hi hj =>
    have hsub : ∀ o ∈ p.declarations.filterMap declaredEnum?,
        o ∈ p'.declarations.filterMap declaredEnum? := fun o ho => by
      obtain ⟨o', ho', rfl⟩ := exists_enum_of_growsInto h ho
      exact ho'
    exact enum_eq_of_name_eq hs.enums hs'.enums hsub (hdescribes'.unique.nodup .enum) hi hj

lemma union_made_of_growsInto {i j : Nat} (hij : SameNames s s' (.union i) (.union j)) :
    ∃ o, (s.unionType i).Made s.typeNames o ∧ (s'.unionType j).Made s'.typeNames o := by
  obtain ⟨_, hdescribes'⟩ := hs'.describes
  cases hij with
  | union hi hj =>
    obtain ⟨u, u', hu, hu', o, _, rfl, hmade, hmade'⟩ := partners_of_name_eq hs.unions hs'.unions
      (fun o => exists_union_of_growsInto h)
      (fun _ _ _ _ ho hu hu' => by rw [hu.name, hu'.name, ho])
      (hdescribes'.unique.nodup .union) hi hj
    rw [unionType, unionType, hu, hu']
    exact ⟨o, hmade, hmade'⟩

lemma struct_made_of_growsInto {i j : Nat} (hij : SameNames s s' (.struct i) (.struct j)) :
    ∃ o o', o.GrowsInto (FieldsGrow extra) o' ∧ (s.structType i).Made s.typeNames s.enums o ∧
      (s'.structType j).Made s'.typeNames s'.enums o' := by
  obtain ⟨_, hdescribes'⟩ := hs'.describes
  cases hij with
  | struct hi hj =>
    obtain ⟨t, t', ht, ht', o, o', hgrow, hmade, hmade'⟩ :=
      partners_of_name_eq hs.structs hs'.structs (fun o => exists_struct_of_growsInto h)
        (fun _ _ _ _ ho ht ht' => by rw [ht.name, ht'.name, ho.name])
        (hdescribes'.unique.nodup .struct) hi hj
    rw [structType, structType, ht, ht']
    exact ⟨o, o', hgrow, hmade, hmade'⟩

/-- One type expression denotes types of the same names. -/
lemma sameNames_of_denotes {e : Package.TypeExpr} {a b : TypeRef} (ha : Denotes s.typeNames e a)
    (hb : Denotes s'.typeNames e b) : SameNames s s' a b := by
  obtain ⟨_, hdescribes⟩ := hs.describes
  obtain ⟨_, hdescribes'⟩ := hs'.describes
  exact Denotes.renumbered hdescribes hdescribes' (within_of_growsInto hs hs' h) ha hb

lemma keeps_of_represents_variant {v u : Variant} {d : Package.Variant}
    (hv : v.Represents s.typeNames d) (hu : u.Represents s'.typeNames d) (htag : u.tag = v.tag) :
    v.Keeps (SameNames s s') u :=
  ⟨hu.name.trans hv.name.symm, htag, sameNames_of_denotes hs hs' h hv.type hu.type⟩

/-- A default is the value of one literal at types of the same names. -/
lemma keeps_of_represents_field {f g : Field} {d : Package.Field}
    (hf : f.Represents s.typeNames s.enums d) (hg : g.Represents s'.typeNames s'.enums d)
    (htag : g.tag = f.tag) : f.Keeps (SameNames s s') g := by
  have htype := sameNames_of_denotes hs hs' h hf.type hg.type
  have hliteral : literalValue s.enums f.type = literalValue s'.enums g.type :=
    literalValue_renumbered (fun i j => enum_eq_of_growsInto hs hs' h) htype
  refine ⟨hg.name.trans hf.name.symm, htag, htype, hg.optional.trans hf.optional.symm, ?_⟩
  have hdefault := hg.default
  rw [← hliteral] at hdefault
  refine eq_of_rel (fun value value' literal hvalue hvalue' => ?_) hdefault hf.default
  rw [hvalue] at hvalue'
  exact Except.ok.inj hvalue'

omit h in
/-- A method whose parameter lists grow refers to structs of the same names. -/
lemma keeps_of_represents_method {owner : String} {m n : Method} {d d' : Package.Method}
    (hd : d.GrowsInto extra d') (hm : m.Represents (StandsIn (structsOf p.declarations)) owner d)
    (hn : n.Represents (StandsIn (structsOf p'.declarations)) owner d') (htag : n.tag = m.tag) :
    m.Keeps (SameNames s s') n := by
  have hstruct {suffix : String} {fields fields' : List Package.Field} {i j : Nat}
      (hi : StandsIn (structsOf p.declarations) i ⟨owner ++ "." ++ d.name ++ suffix, fields, []⟩)
      (hj : StandsIn (structsOf p'.declarations) j
        ⟨owner ++ "." ++ d'.name ++ suffix, fields', []⟩) :
      SameNames s s' (.struct i) (.struct j) := by
    have hi := hs.layout_of_standsIn hi
    have hj := hs'.layout_of_standsIn hj
    rw [hd.name] at hj
    exact .struct hi hj
  have hoptional {suffix : String} {fields fields' : Option (List Package.Field)}
      {i j : Option Nat} (hfields : Option.Rel (FieldsGrow extra) fields fields')
      (hi : Option.Rel (fun id fields => StandsIn (structsOf p.declarations) id
        ⟨owner ++ "." ++ d.name ++ suffix, fields, []⟩) i fields)
      (hj : Option.Rel (fun id fields => StandsIn (structsOf p'.declarations) id
        ⟨owner ++ "." ++ d'.name ++ suffix, fields, []⟩) j fields') :
      Option.Rel (fun i j => SameNames s s' (.struct i) (.struct j)) i j := by
    cases hfields with
    | none =>
      cases hi
      cases hj
      exact .none
    | some _ =>
      cases hi with
      | some hi =>
        cases hj with
        | some hj => exact .some (hstruct hi hj)
  exact ⟨(hn.name.trans hd.name).trans hm.name.symm, htag, hstruct hm.args hn.args,
    hoptional hd.output hm.reply hn.reply, hoptional hd.failure hm.exception hn.exception⟩

/-- **Growth.**  The schema of a package continues in the schema of one that it grows into. -/
theorem continues_of_growsInto {extraField : Field → Prop}
    (hextra : ∀ g d, extra d → g.Represents s'.typeNames s'.enums d → extraField g) :
    Continues extraField s s' := by
  obtain ⟨_, hdescribes⟩ := hs.describes
  obtain ⟨_, hdescribes'⟩ := hs'.describes
  have hfinds := findsByName hdescribes hs.represents
  have hfinds' := findsByName hdescribes' hs'.represents
  have hwithin := within_of_growsInto hs hs' h
  constructor
  · intro name a ha
    rcases (hfinds.type name a).mp ha with ⟨q, rfl, rfl⟩ | ha
    · exact ⟨.prim q, (hfinds'.type _ _).mpr (.inl ⟨q, rfl, rfl⟩), .prim q⟩
    · obtain ⟨b, hb, hab⟩ := exists_renumbered ha fun arena hmem => hwithin arena hmem
      exact ⟨b, (hfinds'.type _ _).mpr (.inr hb), hab⟩
  · intro i j hij
    rw [enumType, enumType, enum_eq_of_growsInto hs hs' h hij]
  · intro i j hij
    obtain ⟨o, hu, hu'⟩ := union_made_of_growsInto hs hs' h hij
    refine ⟨hu'.name.trans hu.name.symm, ?_⟩
    refine (hu.variants.matches_same hu'.variants).imp ?_ fun _ hb => hb
    rintro v u ⟨htag, d, hv, hu⟩
    exact keeps_of_represents_variant hs hs' h hv hu htag
  · intro i j hij
    obtain ⟨o, o', hgrow, ht, ht'⟩ := struct_made_of_growsInto hs hs' h hij
    refine ⟨by rw [ht.name, ht'.name, hgrow.name], ?_⟩
    obtain ⟨more, hmembers, hmore⟩ := hgrow.members
    have hfields := ht'.fields
    rw [hgrow.reserved, hmembers] at hfields
    refine (ht.fields.matches_append hfields).imp ?_ ?_
    · rintro f g ⟨htag, d, hf, hg⟩
      exact keeps_of_represents_field hs hs' h hf hg htag
    · rintro g ⟨d, hd, hg⟩
      exact hextra g d (hmore d hd) hg
  · intro name i hi
    obtain ⟨hmem, rfl⟩ := (hfinds.interface _ _).mp hi
    obtain ⟨i', hmem', o, o', hgrow, hi, hi'⟩ := exists_partner hs.interfaces hs'.interfaces
      (fun o => exists_interface_of_growsInto h) hmem
    have hname : i'.name = i.name := by rw [hi.name, hi'.name, hgrow.name]
    refine ⟨i', (hfinds'.interface _ _).mpr ⟨hmem', hname⟩, hname, ?_⟩
    have hmethods := hi'.methods
    rw [← List.append_nil o'.members, hgrow.name] at hmethods
    refine (hi.methods.matches hmethods hgrow.members
      fun _ _ hd => by rw [hd.name, hd.tag]).imp ?_ (by simp)
    rintro m n ⟨htag, d, d', hd, hm, hn⟩
    exact keeps_of_represents_method hs hs' hd hm hn htag
  · intro name m hm
    obtain ⟨hmem, rfl⟩ := (hfinds.module _ _).mp hm
    obtain ⟨m', hmem', o, _, rfl, hm, hm'⟩ := exists_partner hs.modules hs'.modules
      (fun o => exists_module_of_growsInto h) hmem
    have hname : m'.name = m.name := by rw [hm.name, hm'.name]
    refine ⟨m', (hfinds'.module _ _).mpr ⟨hmem', hname⟩, hname, ?_⟩
    refine (hm.members.matches_same hm'.members).imp ?_ fun _ hb => hb
    rintro m n ⟨htag, d, hm, hn⟩
    refine ⟨hn.name.trans hm.name.symm, htag, ?_⟩
    rw [hs.interfaceType_name hm, hs'.interfaceType_name hn]

end

end Schema

end SchemaRpc
