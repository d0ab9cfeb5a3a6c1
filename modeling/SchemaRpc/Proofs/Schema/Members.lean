/-
# Members as they are declared

What resolution makes of the members of one owner.  Each member keeps its name, gets its explicit
tag if it has one, and refers to what its type expression denotes; then the members are put in
the order of their tags:

* `Represents`, for each kind of member, says what a member has to do with its declaration,
* `Arranged` says that members are the declared ones in the order of their tags, and `Made` which
  tags these are,
* `resolveEnum_eq_ok`, `resolveUnion_eq_ok`, `resolveStruct_eq_ok` and `resolveModule_eq_ok` say
  so of enums, unions, structs and modules.

Which types and interfaces there are is a parameter, given by the tables of their names.
-/
import Mathlib.Data.List.Forall2
import Mathlib.Data.Option.Defs
import SchemaRpc.Proofs.Schema.Tags

namespace SchemaRpc

/-- Members under a name, as they are declared. -/
structure Package.Owner (α : Type) where
  name : String
  members : List α
  reserved : List Tag

namespace Schema

/-! ## Lists side by side -/

section

variable {α β γ : Type} {R : α → β → Prop} {l : List α} {l' : List β}

lemma exists_right_of_forall₂ (h : List.Forall₂ R l l') : ∀ a ∈ l, ∃ b ∈ l', R a b := by
  induction h with
  | nil => exact List.forall_mem_nil _
  | @cons a b l l' hab _ ih =>
    refine List.forall_mem_cons.mpr ⟨⟨b, List.mem_cons_self, hab⟩, fun x hx => ?_⟩
    obtain ⟨y, hy, hxy⟩ := ih x hx
    exact ⟨y, List.mem_cons_of_mem b hy, hxy⟩

lemma exists_left_of_forall₂ (h : List.Forall₂ R l l') {i : Nat} {b : β} (hb : l'[i]? = some b) :
    ∃ a, l[i]? = some a ∧ R a b := by
  induction h generalizing i with
  | nil => cases hb
  | cons hab _ ih =>
    cases i with
    | zero =>
      cases hb
      exact ⟨_, rfl, hab⟩
    | succ i => exact ih hb

lemma map_eq_of_forall₂ {f : α → γ} {g : β → γ} (h : List.Forall₂ R l l')
    (heq : ∀ a b, R a b → f a = g b) : l.map f = l'.map g := by
  rw [← List.forall₂_eq_eq_eq, List.forall₂_map_left_iff, List.forall₂_map_right_iff]
  exact h.imp heq

end

/-! ## Names of one owner -/

lemma firstRepeated?_eq_none_iff {seen names : List String} :
    firstRepeated? seen names = none ↔ names.Nodup ∧ ∀ name ∈ names, name ∉ seen := by
  induction names generalizing seen with
  | nil => simp [firstRepeated?]
  | cons name names ih =>
    rw [firstRepeated?]
    by_cases hseen : name ∈ seen
    · simp [hseen]
    · rw [if_neg (by simpa using hseen), ih, List.nodup_cons]
      constructor
      · rintro ⟨hnodup, hfresh⟩
        refine ⟨⟨fun hmem => hfresh name hmem List.mem_cons_self, hnodup⟩, ?_⟩
        exact List.forall_mem_cons.mpr
          ⟨hseen, fun other hother hmem => hfresh other hother (List.mem_cons_of_mem _ hmem)⟩
      · rintro ⟨⟨hname, hnodup⟩, hfresh⟩
        refine ⟨hnodup, fun other hother hmem => ?_⟩
        rcases List.mem_cons.mp hmem with rfl | hmem
        · exact hname hother
        · exact hfresh other (List.mem_cons_of_mem _ hother) hmem

lemma checkUnique_eq_ok_iff {owner : String} {names : List String} :
    checkUnique owner names = .ok () ↔ names.Nodup := by
  have hnone : firstRepeated? [] names = none ↔ names.Nodup ∧ ∀ name ∈ names, name ∉ [] :=
    firstRepeated?_eq_none_iff
  rw [checkUnique]
  cases h : firstRepeated? [] names with
  | none => simpa [h] using hnone
  | some name => simpa [h] using hnone

/-! ## Types and defaults -/

/-- The type that a type expression denotes, given the declared types by name. -/
inductive Denotes (types : List (String × TypeRef)) : Package.TypeExpr → TypeRef → Prop
  | primitive {name : String} {p : Primitive} (h : Primitive.ofName? name = some p) :
    Denotes types (.named name) (.prim p)
  | declared {name : String} {type : TypeRef} (hname : Primitive.ofName? name = none)
    (h : (name, type) ∈ types) : Denotes types (.named name) type
  | array {item : Package.TypeExpr} {type : TypeRef} (h : Denotes types item type) :
    Denotes types (.array item) (.array type)

lemma Denotes.mono {types types' : List (String × TypeRef)} (hsub : types ⊆ types')
    {e : Package.TypeExpr} {type : TypeRef} (h : Denotes types e type) :
    Denotes types' e type := by
  induction h with
  | primitive h => exact .primitive h
  | declared hname h => exact .declared hname (hsub h)
  | array _ ih => exact .array ih

lemma mem_of_lookup {α : Type} {entries : List (String × α)} {name : String} {a : α}
    (h : entries.lookup name = some a) : (name, a) ∈ entries := by
  obtain ⟨front, back, rfl, -⟩ := List.lookup_eq_some_iff.mp h
  simp

lemma Scope.typeOf_eq_ok {s : Scope} {owner : String} {e : Package.TypeExpr} {type : TypeRef}
    (h : s.typeOf owner e = .ok type) : Denotes s.types e type := by
  induction e generalizing type with
  | named name =>
    rw [typeOf] at h
    split at h
    · rename_i p hp
      cases h
      exact .primitive hp
    · rename_i hname
      split at h
      · rename_i hlookup
        cases h
        exact .declared hname (mem_of_lookup hlookup)
      · cases h
  | array item ih =>
    obtain ⟨inner, hinner, rfl⟩ := Outcome.map_eq_ok_iff.mp h
    exact .array (ih hinner)

lemma resolveDefault_eq_ok {enums : List EnumType} {owner : String} {f : Package.Field}
    {type : TypeRef} {default : Option Value}
    (h : resolveDefault enums owner f type = .ok default) :
    Option.Rel (fun value literal => literalValue enums type literal = .ok value) default
      f.literal := by
  rw [resolveDefault] at h
  split at h
  · rename_i hliteral
    cases h
    rw [hliteral]
    exact .none
  · rename_i literal hliteral
    split at h
    · rename_i value hvalue
      cases h
      rw [hliteral]
      exact .some hvalue
    · cases h

/-! ## Members and their declarations -/

/-- A label as it is declared. -/
structure Label.Represents (l : Label) (d : Package.Label) : Prop where
  name : l.name = d.name
  value : ∀ value ∈ d.value, l.value = value

/-- A variant as it is declared. -/
structure Variant.Represents (types : List (String × TypeRef)) (v : Variant)
    (d : Package.Variant) : Prop where
  name : v.name = d.name
  tag : ∀ tag ∈ d.tag, v.tag = tag
  type : Denotes types d.type v.type

/-- A field as it is declared. -/
structure Field.Represents (types : List (String × TypeRef)) (enums : List EnumType) (f : Field)
    (d : Package.Field) : Prop where
  name : f.name = d.name
  tag : ∀ tag ∈ d.tag, f.tag = tag
  type : Denotes types d.type f.type
  optional : f.optional = d.optional
  default : Option.Rel (fun value literal => literalValue enums f.type literal = .ok value)
    f.default d.literal

/-- A member of a module as it is declared. -/
structure Member.Represents (interfaces : List (String × Nat)) (m : Member)
    (d : Package.Member) : Prop where
  name : m.name = d.name
  tag : ∀ tag ∈ d.tag, m.tag = tag
  interface : (d.interface, m.interface) ∈ interfaces

lemma Variant.Represents.mono {types types' : List (String × TypeRef)} (hsub : types ⊆ types')
    {v : Variant} {d : Package.Variant} (h : v.Represents types d) : v.Represents types' d :=
  ⟨h.name, h.tag, h.type.mono hsub⟩

lemma Field.Represents.mono {types types' : List (String × TypeRef)} (hsub : types ⊆ types')
    {enums : List EnumType} {f : Field} {d : Package.Field} (h : f.Represents types enums d) :
    f.Represents types' enums d :=
  ⟨h.name, h.tag, h.type.mono hsub, h.optional, h.default⟩

/-! ## Members in order -/

section

variable {α β : Type}

/-- Members are the declared ones, in the order of their tags. -/
structure Arranged (tagOf : α → Tag) (nameOf : α → String) (R : α → β → Prop)
    (reserved : List Tag) (members : List α) (declared : List β) : Prop where
  ascends : members.Pairwise (tagOf · < tagOf ·)
  ne_zero : ∀ a ∈ members, tagOf a ≠ .zero
  free : ∀ a ∈ members, tagOf a ∉ reserved
  names : (members.map nameOf).Nodup
  declared : ∃ l, members.Perm l ∧ List.Forall₂ R l declared

variable {tagOf : α → Tag} {nameOf : α → String} {R R' : α → β → Prop} {reserved : List Tag}
  {members : List α} {declared : List β}

lemma Arranged.imp (h : Arranged tagOf nameOf R reserved members declared)
    (himp : ∀ a b, R a b → R' a b) : Arranged tagOf nameOf R' reserved members declared := by
  obtain ⟨l, hperm, hl⟩ := h.declared
  exact ⟨h.ascends, h.ne_zero, h.free, h.names, l, hperm, hl.imp himp⟩

/-- Every member has a declaration. -/
lemma Arranged.exists_declared (h : Arranged tagOf nameOf R reserved members declared) :
    ∀ a ∈ members, ∃ d ∈ declared, R a d := by
  obtain ⟨l, hperm, hl⟩ := h.declared
  intro a ha
  exact exists_right_of_forall₂ hl a (hperm.mem_iff.mp ha)

/-- Members with tags given one after the other, once they are put in order. -/
lemma arranged_sortByTag {declaredName : β → String} {explicit : β → Option Tag}
    (htags : (Tagging.start reserved).assignAll
      (declared.map fun d => (declaredName d, explicit d)) = .ok (members.map tagOf))
    (hR : List.Forall₂ R members declared) (hname : ∀ a d, R a d → nameOf a = declaredName d)
    (hnames : (declared.map declaredName).Nodup) :
    Arranged tagOf nameOf R reserved (sortByTag tagOf members) declared := by
  have hadmits := Tagging.assignAll_admits htags
  have hperm := sortByTag_perm tagOf members
  have hsame : members.map nameOf = declared.map declaredName := map_eq_of_forall₂ hR hname
  refine ⟨sortByTag_pairwise tagOf hadmits.nodup, fun a ha => ?_, fun a ha => ?_, ?_,
    members, hperm, hR⟩
  · exact hadmits.ne_zero _ (List.mem_map_of_mem (hperm.mem_iff.mp ha))
  · exact hadmits.free _ (List.mem_map_of_mem (hperm.mem_iff.mp ha))
  · rw [(hperm.map nameOf).nodup_iff, hsame]
    exact hnames

/-- Members are made from the declared ones: with different names, with the tags that are given in
the order of declaration, and then put in the order of the tags. -/
structure Made (tagOf : α → Tag) (R : α → β → Prop) (entry : β → String × Option Tag)
    (reserved : List Tag) (members : List α) (declared : List β) : Prop where
  names : (declared.map fun d => (entry d).1).Nodup
  tagged : ∃ l, members = sortByTag tagOf l ∧
    (Tagging.start reserved).assignAll (declared.map entry) = .ok (l.map tagOf) ∧
    List.Forall₂ R l declared

variable {entry : β → String × Option Tag}

lemma Made.imp (h : Made tagOf R entry reserved members declared)
    (himp : ∀ a b, R a b → R' a b) : Made tagOf R' entry reserved members declared := by
  obtain ⟨l, hl, htags, hR⟩ := h.tagged
  exact ⟨h.names, l, hl, htags, hR.imp himp⟩

lemma Made.arranged (h : Made tagOf R entry reserved members declared)
    (hname : ∀ a d, R a d → nameOf a = (entry d).1) :
    Arranged tagOf nameOf R reserved members declared := by
  obtain ⟨l, rfl, htags, hR⟩ := h.tagged
  have hentries : (Tagging.start reserved).assignAll
      (declared.map fun d => ((entry d).1, (entry d).2)) = .ok (l.map tagOf) := htags
  exact arranged_sortByTag hentries hR hname h.names

end

/-! ## Labels -/

/-- The values that have been given. -/
def Numbering.taken (n : Numbering) : List Int := n.given.map (·.1)

lemma Numbering.give_eq_ok {n n' : Numbering} {label : String}
    {value value' : IntKind.i32.Ranged} (h : n.give label value = .ok (value', n')) :
    value' = value ∧ value.val ∉ n.taken ∧ n'.taken = value.val :: n.taken := by
  unfold give at h
  split at h
  · cases h
  · rename_i hnone
    cases h
    refine ⟨rfl, ?_, rfl⟩
    rw [Numbering.taken, List.mem_map]
    rintro ⟨entry, hmem, heq⟩
    rw [List.lookup_eq_none_iff] at hnone
    simpa [heq] using hnone entry hmem

lemma Numbering.assign_eq_ok {n n' : Numbering} {label : String}
    {explicit : Option IntKind.i32.Ranged} {value : IntKind.i32.Ranged}
    (h : n.assign label explicit = .ok (value, n')) :
    (∀ wanted ∈ explicit, value = wanted) ∧ value.val ∉ n.taken ∧
      n'.taken = value.val :: n.taken := by
  unfold assign at h
  split at h
  · obtain ⟨rfl, hfresh, htaken⟩ := give_eq_ok h
    exact ⟨by simp, hfresh, htaken⟩
  · split at h
    · obtain ⟨rfl, hfresh, htaken⟩ := give_eq_ok h
      exact ⟨by simp, hfresh, htaken⟩
    · cases h

/-- Labels as declared, with values that are different and had not been taken before. -/
lemma resolveLabels_eq_ok {owner : String} {n : Numbering} {labels : List Package.Label}
    {out : List Label} (h : resolveLabels owner n labels = .ok out) :
    List.Forall₂ Label.Represents out labels ∧ (out.map (·.value)).Nodup ∧
      ∀ l ∈ out, l.value.val ∉ n.taken := by
  induction labels generalizing n out with
  | nil =>
    cases h
    exact ⟨.nil, List.nodup_nil, List.forall_mem_nil _⟩
  | cons d labels ih =>
    obtain ⟨⟨value, n'⟩, hvalue, h⟩ := Outcome.bind_eq_ok_iff.mp h
    obtain ⟨rest, hrest, h⟩ := Outcome.bind_eq_ok_iff.mp h
    obtain rfl := Outcome.pure_eq_ok_iff.mp h
    obtain ⟨hexplicit, hfresh, htaken⟩ :=
      Numbering.assign_eq_ok (Outcome.mapError_eq_ok_iff.mp hvalue)
    obtain ⟨hlabels, hnodup, hothers⟩ := ih hrest
    rw [htaken] at hothers
    refine ⟨.cons ⟨rfl, hexplicit⟩ hlabels, List.nodup_cons.mpr ⟨fun hmem => ?_, hnodup⟩, ?_⟩
    · obtain ⟨l, hl, hvalue⟩ := List.mem_map.mp hmem
      exact hothers l hl (hvalue ▸ List.mem_cons_self)
    · exact List.forall_mem_cons.mpr
        ⟨hfresh, fun l hl hmem => hothers l hl (List.mem_cons_of_mem _ hmem)⟩

/-- An enum as it is declared: labels in the order of their declaration, with different names and
different values. -/
structure EnumType.Represents (e : EnumType) (d : Package.Owner Package.Label) : Prop where
  name : e.name = d.name
  labels : List.Forall₂ Label.Represents e.labels d.members
  names : (e.labels.map (·.name)).Nodup
  values : (e.labels.map (·.value)).Nodup

lemma resolveEnum_eq_ok {d : Package.Owner Package.Label} {e : EnumType}
    (h : resolveEnum d.name d.members = .ok e) : e.Represents d := by
  obtain ⟨_, hnames, h⟩ := Outcome.bind_eq_ok_iff.mp h
  obtain ⟨out, hout, h⟩ := Outcome.bind_eq_ok_iff.mp h
  obtain rfl := Outcome.pure_eq_ok_iff.mp h
  obtain ⟨hlabels, hvalues, -⟩ := resolveLabels_eq_ok hout
  refine ⟨rfl, hlabels, ?_, hvalues⟩
  rw [map_eq_of_forall₂ hlabels fun l d hl => hl.name]
  exact checkUnique_eq_ok_iff.mp hnames

/-! ## Unions, structs and modules -/

/-- A union as it is declared; it has a variant. -/
structure UnionType.Represents (types : List (String × TypeRef)) (union : UnionType)
    (d : Package.Owner Package.Variant) : Prop where
  name : union.name = d.name
  ne_nil : union.variants ≠ []
  variants : Arranged (·.tag) (·.name) (Variant.Represents types) d.reserved union.variants
    d.members

/-- A struct as it is declared, by itself or as a parameter list. -/
structure StructType.Represents (types : List (String × TypeRef)) (enums : List EnumType)
    (struct : StructType) (d : Package.Owner Package.Field) : Prop where
  name : struct.name = d.name
  fields : Arranged (·.tag) (·.name) (Field.Represents types enums) d.reserved struct.fields
    d.members

/-- A module as it is declared. -/
structure ModuleType.Represents (interfaces : List (String × Nat)) (module : ModuleType)
    (d : Package.Owner Package.Member) : Prop where
  name : module.name = d.name
  members : Arranged (·.tag) (·.name) (Member.Represents interfaces) [] module.members d.members

/-- A union as it is made from its declaration; this has a variant. -/
structure UnionType.Made (types : List (String × TypeRef)) (union : UnionType)
    (d : Package.Owner Package.Variant) : Prop where
  name : union.name = d.name
  ne_nil : d.members ≠ []
  variants : Schema.Made (·.tag) (Variant.Represents types) (fun d => (d.name, d.tag)) d.reserved
    union.variants d.members

/-- A struct as it is made from its declaration. -/
structure StructType.Made (types : List (String × TypeRef)) (enums : List EnumType)
    (struct : StructType) (d : Package.Owner Package.Field) : Prop where
  name : struct.name = d.name
  fields : Schema.Made (·.tag) (Field.Represents types enums) (fun d => (d.name, d.tag)) d.reserved
    struct.fields d.members

/-- A module as it is made from its declaration. -/
structure ModuleType.Made (interfaces : List (String × Nat)) (module : ModuleType)
    (d : Package.Owner Package.Member) : Prop where
  name : module.name = d.name
  members : Schema.Made (·.tag) (Member.Represents interfaces) (fun d => (d.name, d.tag)) []
    module.members d.members

section

variable {types types' : List (String × TypeRef)} {enums : List EnumType}

lemma UnionType.Made.mono (hsub : types ⊆ types') {union : UnionType}
    {d : Package.Owner Package.Variant} (h : union.Made types d) : union.Made types' d :=
  ⟨h.name, h.ne_nil, h.variants.imp fun _ _ hv => hv.mono hsub⟩

lemma StructType.Made.mono (hsub : types ⊆ types') {struct : StructType}
    {d : Package.Owner Package.Field} (h : struct.Made types enums d) :
    struct.Made types' enums d :=
  ⟨h.name, h.fields.imp fun _ _ hf => hf.mono hsub⟩

lemma UnionType.Made.represents {union : UnionType} {d : Package.Owner Package.Variant}
    (h : union.Made types d) : union.Represents types d := by
  have hvariants : Arranged (·.tag) (·.name) (Variant.Represents types) d.reserved union.variants
      d.members := h.variants.arranged fun _ _ hv => hv.name
  refine ⟨h.name, fun hnil => h.ne_nil ?_, hvariants⟩
  obtain ⟨l, hperm, hl⟩ := hvariants.declared
  rw [hnil] at hperm
  rw [List.nil_perm.mp hperm] at hl
  exact List.forall₂_nil_left_iff.mp hl

lemma StructType.Made.represents {struct : StructType} {d : Package.Owner Package.Field}
    (h : struct.Made types enums d) : struct.Represents types enums d :=
  ⟨h.name, h.fields.arranged fun _ _ hf => hf.name⟩

lemma ModuleType.Made.represents {interfaces : List (String × Nat)} {module : ModuleType}
    {d : Package.Owner Package.Member} (h : module.Made interfaces d) :
    module.Represents interfaces d :=
  ⟨h.name, h.members.arranged fun _ _ hm => hm.name⟩

end

/-! ## Members one after the other -/

/-- A pass over the members of one owner: each gets its tag, and then becomes what it becomes with
this tag. -/
structure Numbered {α β : Type} (owner : String) (entry : β → String × Option Tag)
    (tagOf : α → Tag) (resolveOne : β → Tag → Resolved α)
    (pass : Tagging → List β → Resolved (List α)) : Prop where
  nil : ∀ t, pass t [] = .ok []
  cons : ∀ t d ds, pass t (d :: ds) = do
    let (tag, t) ← nextTag owner t (entry d).1 (entry d).2
    let a ← resolveOne d tag
    return a :: (← pass t ds)
  tag : ∀ d tag a, resolveOne d tag = .ok a → tagOf a = tag

section

variable {α β : Type} {owner : String} {entry : β → String × Option Tag} {tagOf : α → Tag}
  {resolveOne : β → Tag → Resolved α} {pass : Tagging → List β → Resolved (List α)}

lemma Numbered.eq_ok (hpass : Numbered owner entry tagOf resolveOne pass) {t : Tagging}
    {ds : List β} {out : List α} (h : pass t ds = .ok out) :
    t.assignAll (ds.map entry) = .ok (out.map tagOf) ∧
      List.Forall₂ (fun a d => resolveOne d (tagOf a) = .ok a ∧
        ∀ tag ∈ (entry d).2, tagOf a = tag) out ds := by
  induction ds generalizing t out with
  | nil =>
    rw [hpass.nil] at h
    cases h
    exact ⟨rfl, .nil⟩
  | cons d ds ih =>
    rw [hpass.cons] at h
    obtain ⟨⟨tag, t'⟩, hnext, h⟩ := Outcome.bind_eq_ok_iff.mp h
    obtain ⟨a, ha, h⟩ := Outcome.bind_eq_ok_iff.mp h
    obtain ⟨rest, hrest, h⟩ := Outcome.bind_eq_ok_iff.mp h
    obtain rfl := Outcome.pure_eq_ok_iff.mp h
    have htag := nextTag_eq_ok_iff.mp hnext
    obtain ⟨htags, hmembers⟩ := ih hrest
    obtain rfl := hpass.tag d tag a ha
    exact ⟨Tagging.assignAll_cons_eq_ok.mpr ⟨tagOf a, t', _, htag, htags, rfl⟩,
      .cons ⟨ha, (Tagging.assign_eq_ok htag).explicit⟩ hmembers⟩

/-- A pass succeeds if there are tags and every member becomes something, whatever its tag. -/
lemma Numbered.exists_eq_ok (hpass : Numbered owner entry tagOf resolveOne pass) {t : Tagging}
    {ds : List β} {tags : List Tag} (htags : t.assignAll (ds.map entry) = .ok tags)
    (hone : ∀ d ∈ ds, ∀ tag, ∃ a, resolveOne d tag = .ok a) : ∃ out, pass t ds = .ok out := by
  induction ds generalizing t tags with
  | nil => exact ⟨[], hpass.nil t⟩
  | cons d ds ih =>
    rw [List.forall_mem_cons] at hone
    obtain ⟨tag, t', rest, htag, hrest, rfl⟩ := Tagging.assignAll_cons_eq_ok.mp htags
    obtain ⟨a, ha⟩ := hone.1 tag
    obtain ⟨out, hout⟩ := ih hrest hone.2
    refine ⟨a :: out, ?_⟩
    rw [hpass.cons]
    refine Outcome.bind_eq_ok_iff.mpr ⟨(tag, t'), nextTag_eq_ok_iff.mpr htag, ?_⟩
    refine Outcome.bind_eq_ok_iff.mpr ⟨a, ha, ?_⟩
    exact Outcome.bind_eq_ok_iff.mpr ⟨out, hout, rfl⟩

end

/-- A variant with its tag. -/
def resolveVariant (s : Scope) (owner : String) (d : Package.Variant) (tag : Tag) :
    Resolved Variant :=
  (s.typeOf owner d.type).map fun type => ⟨d.name, tag, type⟩

/-- A field with its tag. -/
def resolveField (s : Scope) (enums : List EnumType) (owner : String) (d : Package.Field)
    (tag : Tag) : Resolved Field := do
  let type ← s.typeOf owner d.type
  return ⟨d.name, tag, type, d.optional, ← resolveDefault enums owner d type⟩

/-- A member of a module with its tag. -/
def resolveMember (s : Scope) (owner : String) (d : Package.Member) (tag : Tag) :
    Resolved Member :=
  match s.interfaces.lookup d.interface with
  | none => .error (.unknownInterface owner d.interface)
  | some id => .ok ⟨d.name, tag, id⟩

lemma numbered_resolveVariants (s : Scope) (owner : String) :
    Numbered owner (fun d => (d.name, d.tag)) (·.tag) (resolveVariant s owner)
      (resolveVariants s owner) := by
  refine ⟨fun _ => rfl, fun t d ds => ?_, fun d tag v h => ?_⟩
  · rw [resolveVariants]
    refine bind_congr fun next => ?_
    unfold resolveVariant
    cases s.typeOf owner d.type <;> rfl
  · obtain ⟨type, -, rfl⟩ := Outcome.map_eq_ok_iff.mp h
    rfl

lemma numbered_resolveFieldList (s : Scope) (enums : List EnumType) (owner : String) :
    Numbered owner (fun d => (d.name, d.tag)) (·.tag) (resolveField s enums owner)
      (resolveFieldList s enums owner) := by
  refine ⟨fun _ => rfl, fun t d ds => ?_, fun d tag f h => ?_⟩
  · rw [resolveFieldList]
    refine bind_congr fun next => ?_
    unfold resolveField
    simp only [bind_assoc, pure_bind]
  · obtain ⟨type, -, h⟩ := Outcome.bind_eq_ok_iff.mp h
    obtain ⟨default, -, h⟩ := Outcome.bind_eq_ok_iff.mp h
    obtain rfl := Outcome.pure_eq_ok_iff.mp h
    rfl

lemma numbered_resolveMembers (s : Scope) (owner : String) :
    Numbered owner (fun d => (d.name, d.tag)) (·.tag) (resolveMember s owner)
      (resolveMembers s owner) := by
  refine ⟨fun _ => rfl, fun t d ds => ?_, fun d tag m h => ?_⟩
  · rw [resolveMembers]
    refine bind_congr fun next => ?_
    unfold resolveMember
    cases s.interfaces.lookup d.interface <;> rfl
  · unfold resolveMember at h
    split at h
    · cases h
    · cases h
      rfl

lemma resolveVariant_eq_ok {s : Scope} {owner : String} {d : Package.Variant} {v : Variant}
    (h : resolveVariant s owner d v.tag = .ok v) (htag : ∀ tag ∈ d.tag, v.tag = tag) :
    v.Represents s.types d := by
  obtain ⟨type, htype, hv⟩ := Outcome.map_eq_ok_iff.mp h
  rw [← hv] at htag ⊢
  exact ⟨rfl, htag, Scope.typeOf_eq_ok htype⟩

lemma resolveField_eq_ok {s : Scope} {enums : List EnumType} {owner : String} {d : Package.Field}
    {f : Field} (h : resolveField s enums owner d f.tag = .ok f)
    (htag : ∀ tag ∈ d.tag, f.tag = tag) : f.Represents s.types enums d := by
  obtain ⟨type, htype, h⟩ := Outcome.bind_eq_ok_iff.mp h
  obtain ⟨default, hdefault, h⟩ := Outcome.bind_eq_ok_iff.mp h
  have hf := Outcome.pure_eq_ok_iff.mp h
  rw [← hf] at htag ⊢
  exact ⟨rfl, htag, Scope.typeOf_eq_ok htype, rfl, resolveDefault_eq_ok hdefault⟩

lemma resolveMember_eq_ok {s : Scope} {owner : String} {d : Package.Member} {m : Member}
    (h : resolveMember s owner d m.tag = .ok m) (htag : ∀ tag ∈ d.tag, m.tag = tag) :
    m.Represents s.interfaces d := by
  unfold resolveMember at h
  split at h
  · cases h
  · rename_i id hid
    have hm := Except.ok.inj h
    rw [← hm] at htag ⊢
    exact ⟨rfl, htag, mem_of_lookup hid⟩

lemma resolveUnion_eq_ok {s : Scope} {d : Package.Owner Package.Variant} {union : UnionType}
    (h : resolveUnion s d.name d.members d.reserved = .ok union) : union.Made s.types d := by
  unfold resolveUnion at h
  split at h
  · cases h
  · rename_i hne
    obtain ⟨_, hnames, h⟩ := Outcome.bind_eq_ok_iff.mp h
    obtain ⟨out, hout, h⟩ := Outcome.bind_eq_ok_iff.mp h
    obtain rfl := Outcome.pure_eq_ok_iff.mp h
    obtain ⟨htags, hvariants⟩ := (numbered_resolveVariants s d.name).eq_ok hout
    exact ⟨rfl, fun hnil => hne (by rw [hnil]; rfl), checkUnique_eq_ok_iff.mp hnames, out, rfl,
      htags, hvariants.imp fun _ _ hv => resolveVariant_eq_ok hv.1 hv.2⟩

lemma resolveStruct_eq_ok {s : Scope} {enums : List EnumType} {d : Package.Owner Package.Field}
    {struct : StructType} (h : resolveStruct s enums d.name d.members d.reserved = .ok struct) :
    struct.Made s.types enums d := by
  obtain ⟨_, hnames, h⟩ := Outcome.bind_eq_ok_iff.mp h
  obtain ⟨out, hout, h⟩ := Outcome.bind_eq_ok_iff.mp h
  obtain rfl := Outcome.pure_eq_ok_iff.mp h
  obtain ⟨htags, hfields⟩ := (numbered_resolveFieldList s enums d.name).eq_ok hout
  exact ⟨rfl, checkUnique_eq_ok_iff.mp hnames, out, rfl, htags,
    hfields.imp fun _ _ hf => resolveField_eq_ok hf.1 hf.2⟩

lemma resolveModule_eq_ok {s : Scope} {d : Package.Owner Package.Member} {module : ModuleType}
    (h : resolveModule s d.name d.members = .ok module) : module.Made s.interfaces d := by
  obtain ⟨_, hnames, h⟩ := Outcome.bind_eq_ok_iff.mp h
  obtain ⟨out, hout, h⟩ := Outcome.bind_eq_ok_iff.mp h
  obtain rfl := Outcome.pure_eq_ok_iff.mp h
  obtain ⟨htags, hmembers⟩ := (numbered_resolveMembers s d.name).eq_ok hout
  exact ⟨rfl, checkUnique_eq_ok_iff.mp hnames, out, rfl, htags,
    hmembers.imp fun _ _ hm => resolveMember_eq_ok hm.1 hm.2⟩

end Schema

end SchemaRpc
