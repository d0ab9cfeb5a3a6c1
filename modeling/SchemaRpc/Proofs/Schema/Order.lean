/-
# The order of declaration

The order of the declarations of a package decides on positions and on nothing else.  A type may
refer to declarations behind it, as all names are declared first; only the structs of parameter
lists come into scope one by one, and these have dots in their names.  So where no type
expression has a dot, the declarations can be put in any order.

* `exists_resolve_of_perm` says that resolution succeeds in every order,
* `SameShape` says in how far the types of two schemas correspond, in terms of their parts, and
  `Agree` that all that two schemas have corresponds,
* `agree_of_subset` says that the schemas of packages with the same declarations agree.
-/
import SchemaRpc.Proofs.Schema.Acyclicity
import SchemaRpc.Proofs.Schema.Growth
import SchemaRpc.Proofs.Schema.Success

namespace SchemaRpc

namespace Package

/-- The type expression has no dot, so it does not name the struct of a parameter list. -/
def TypeExpr.Plain : TypeExpr → Prop
  | .named name => '.' ∉ name.toList
  | .array item => item.Plain

/-- No type expression of the package has a dot. -/
structure Plain (p : Package) : Prop where
  variants : ∀ o ∈ p.declarations.filterMap Schema.declaredUnion?, ∀ v ∈ o.members, v.type.Plain
  fields : ∀ o ∈ Schema.structsOf p.declarations, ∀ f ∈ o.members, f.type.Plain

end Package

namespace Schema

/-! ## Names in another order -/

section

variable {ds ds' : List Package.Declaration}

lemma map_name_declaredStruct (ds : List Package.Declaration) :
    (ds.filterMap declaredStruct?).map (·.name) = declaredNames ds .struct :=
  map_name_eq_declaredNames (fun d => by cases d <;> rfl) (fun _ _ heq => by rw [heq])
    (List.forall₂_same.mpr fun o _ => Eq.refl o)

/-- The names of parameter lists have dots. -/
lemma dot_mem_of_mem_parameterLists {interfaces : List (Package.Owner Package.Method)}
    {o : Package.Owner Package.Field} (ho : o ∈ parameterLists interfaces) :
    '.' ∈ o.name.toList := by
  obtain ⟨i, -, ho⟩ := List.mem_flatMap.mp ho
  obtain ⟨m, -, ho⟩ := List.mem_flatMap.mp ho
  have hdot (suffix : String) : '.' ∈ (i.name ++ "." ++ m.name ++ suffix).toList := by
    simp [String.toList_append]
  rw [methodParameters, List.mem_cons, List.mem_append, List.mem_map, List.mem_map] at ho
  rcases ho with rfl | ⟨fields, -, rfl⟩ | ⟨fields, -, rfl⟩ <;> exact hdot _

variable (h : ds.Perm ds')
include h

lemma mem_declaredNames_perm {a : Arena} {name : String} (hname : name ∈ declaredNames ds a) :
    name ∈ declaredNames ds' a :=
  ((h.filter _).map _).mem_iff.mp hname

lemma perm_parameterLists : (parameterLists (ds.filterMap declaredInterface?)).Perm
    (parameterLists (ds'.filterMap declaredInterface?)) :=
  (h.filterMap _).flatMap_right _

lemma perm_structsOf : (structsOf ds).Perm (structsOf ds') :=
  (h.filterMap _).append (perm_parameterLists h)

omit h in
lemma plain_of_perm {p : Package} (hplain : p.Plain) (h : p.declarations.Perm ds) :
    Package.Plain ⟨p.name, ds⟩ :=
  ⟨fun o ho => hplain.variants o ((h.filterMap _).mem_iff.mpr ho),
    fun o ho => hplain.fields o ((perm_structsOf h).mem_iff.mpr ho)⟩

end

/-! ## Resolution in another order -/

namespace Passes

variable {p : Package} {s : Schema} {start : Scope} {declared : List StructType} {g : Growing}
  (h : Passes p s start declared g)
include h

lemma layout_struct : s.layout .struct = (structsOf p.declarations).map (·.name) :=
  map_eq_of_forall₂ h.madeFrom.structs fun _ _ ht => ht.name

lemma layout_of_ne {a : Arena} (ha : a ≠ .struct) :
    s.layout a = declaredNames p.declarations a := by
  rw [h.layout_eq, Function.update_of_ne ha]

/-- A name without dots is that of a declaration. -/
lemma mem_declaredNames {a : Arena} {name : String} (hplain : '.' ∉ name.toList)
    (hname : name ∈ s.layout a) : name ∈ declaredNames p.declarations a := by
  by_cases ha : a = .struct
  · subst ha
    rw [h.layout_struct, structsOf, List.map_append, map_name_declaredStruct] at hname
    refine (List.mem_append.mp hname).resolve_right fun hmem => hplain ?_
    obtain ⟨o, ho, rfl⟩ := List.mem_map.mp hmem
    exact dot_mem_of_mem_parameterLists ho
  · rwa [← h.layout_of_ne ha]

/-- The names of parameter lists differ, and no declaration has one of them. -/
lemma parameterLists_names :
    ((parameterLists (p.declarations.filterMap declaredInterface?)).map (·.name)).Nodup ∧
      ∀ o ∈ parameterLists (p.declarations.filterMap declaredInterface?),
        Primitive.ofName? o.name = none ∧ o.name ∉ p.declarations.map (·.name) := by
  have hunique := h.describes.unique
  have hnodup := hunique.nodup .struct
  rw [h.layout_struct, structsOf, List.map_append, List.nodup_append] at hnodup
  refine ⟨hnodup.2.1, fun o ho => ⟨?_, fun hmem => ?_⟩⟩
  · refine h.describes.primitive _ (h.describes.claimed .struct _ ?_)
    rw [h.layout_struct, structsOf]
    exact List.mem_map_of_mem (List.mem_append_right _ ho)
  · obtain ⟨d, hd, hname⟩ := List.mem_map.mp hmem
    have hdeclared : o.name ∈ declaredNames p.declarations (arenaOf d) :=
      List.mem_map.mpr ⟨d, List.mem_filter.mpr ⟨hd, by simp⟩, hname⟩
    by_cases ha : arenaOf d = .struct
    · rw [ha, ← map_name_declaredStruct] at hdeclared
      exact hnodup.2.2 _ hdeclared _ (List.mem_map_of_mem ho) rfl
    · rw [← h.layout_of_ne ha] at hdeclared
      have hstruct : o.name ∈ s.layout .struct := by
        rw [h.layout_struct, structsOf]
        exact List.mem_map_of_mem (List.mem_append_right _ ho)
      obtain ⟨i, hi⟩ := List.mem_iff_getElem?.mp hdeclared
      obtain ⟨j, hj⟩ := List.mem_iff_getElem?.mp hstruct
      exact ha (hunique _ _ _ _ _ hi hj).1

section

variable {ds : List Package.Declaration} (hperm : p.declarations.Perm ds) {start' : Scope}
  (hstart : declare ⟨[], [], []⟩ ⟨0, 0, 0, 0⟩ ds = .ok start')
include hperm hstart

/-- A type expression without dots still denotes a type, of the same name. -/
lemma exists_denotes {e : Package.TypeExpr} (hplain : e.Plain) {type : TypeRef}
    (he : Denotes s.typeNames e type) :
    ∃ type', Denotes start'.types e type' ∧
      Renumbered s.layout (declaredNames ds) type type' := by
  have hdescribes := describes_of_declare hstart
  induction he with
  | primitive hp => exact ⟨_, .primitive hp, .prim _⟩
  | declared hp hmem =>
    obtain ⟨b, hb, hab⟩ := exists_renumbered ((h.describes.types _ _).mp hmem) fun arena hname =>
      mem_declaredNames_perm hperm (h.mem_declaredNames hplain hname)
    exact ⟨b, .declared hp ((hdescribes.types _ _).mpr hb), hab⟩
  | array _ ih =>
    obtain ⟨b, hb, hab⟩ := ih hplain
    exact ⟨.array b, .array hb, .array hab⟩

variable {enums : List EnumType} (henums : resolveEnums ds = .ok enums)
include henums

/-- The enums stay as they are, and so do the values of literals. -/
lemma literalValue_eq {a b : TypeRef} (hab : Renumbered s.layout (declaredNames ds) a b) :
    literalValue s.enums a = literalValue enums b := by
  have hmade := pass_resolveEnums.forall₂ henums
  have hnames : enums.map (·.name) = declaredNames ds .enum :=
    map_name_eq_declaredNames (fun d => by cases d <;> rfl) (fun _ _ he => he.name)
      (hmade.imp fun _ _ => resolveEnum_eq_ok)
  have hnodup : (enums.map (·.name)).Nodup := by
    rw [hnames]
    exact (describes_of_declare hstart).unique.nodup .enum
  refine literalValue_renumbered (fun i j hij => ?_) hab
  cases hij with
  | enum hi hj =>
    rw [← hnames] at hj
    exact enum_eq_of_name_eq h.made_enums hmade (fun o => (hperm.filterMap _).mem_iff.mp) hnodup
      hi hj

variable (hplain : p.Plain)
include hplain

omit henums in
lemma exists_resolveUnion {o : Package.Owner Package.Variant}
    (ho : o ∈ ds.filterMap declaredUnion?) :
    ∃ u, resolveUnion start' o.name o.members o.reserved = .ok u := by
  have ho := (hperm.filterMap _).mem_iff.mpr ho
  obtain ⟨union, -, hmade⟩ := exists_right_of_forall₂ h.made_unions.flip o ho
  have hkeeps : start.types ⊆ s.typeNames := h.typeNames_eq ▸ h.sound.1.keeps
  refine hmade.exists_resolve fun d hd type htype => ?_
  obtain ⟨type', htype', -⟩ := h.exists_denotes hperm hstart (hplain.variants o ho d hd)
    (htype.mono hkeeps)
  exact ⟨type', htype'.typeOf_eq_ok (describes_of_declare hstart) o.name⟩

/-- The structs can be resolved, and the parameter lists wherever all declared types are known. -/
lemma exists_resolveStruct {o : Package.Owner Package.Field} (ho : o ∈ structsOf ds)
    {scope : Scope} (hscope : start'.types <+: scope.types) :
    ∃ t, resolveStruct scope enums o.name o.members o.reserved = .ok t := by
  have ho := (perm_structsOf hperm).mem_iff.mpr ho
  obtain ⟨struct, -, hmade⟩ := exists_right_of_forall₂ h.madeFrom.structs.flip o ho
  refine hmade.exists_resolve fun d hd type htype => ?_
  obtain ⟨type', htype', hrenumbered⟩ := h.exists_denotes hperm hstart
    (hplain.fields o ho d hd) htype
  exact ⟨type', Scope.typeOf_of_prefix hscope
    (htype'.typeOf_eq_ok (describes_of_declare hstart) o.name),
    h.literalValue_eq hperm hstart henums hrenumbered⟩

lemma room : Room start' enums start' (parameterLists (ds.filterMap declaredInterface?)) := by
  have hlists := perm_parameterLists hperm
  obtain ⟨hnodup, hnames⟩ := h.parameterLists_names
  refine ⟨List.prefix_rfl, (hlists.map _).nodup_iff.mp hnodup, fun o ho => ?_, fun o ho scope => ?_⟩
  · obtain ⟨hprimitive, hname⟩ := hnames o (hlists.mem_iff.mpr ho)
    refine ⟨hprimitive, fun hmem => hname ((hperm.map _).mem_iff.mpr ?_)⟩
    exact (mem_claimed_of_declare hstart hmem).resolve_left (List.not_mem_nil)
  · exact h.exists_resolveStruct hperm hstart henums hplain (List.mem_append_right _ ho)

end

/-- The passes succeed on the declarations in another order. -/
lemma exists_passes_of_perm (hplain : p.Plain) {ds : List Package.Declaration}
    (hperm : p.declarations.Perm ds) :
    ∃ s' start' declared' g', Passes ⟨p.name, ds⟩ s' start' declared' g' := by
  obtain ⟨hnodup, hfree⟩ := exists_declare_iff.mp ⟨start, h.names⟩
  obtain ⟨start', hstart⟩ : ∃ start', declare ⟨[], [], []⟩ ⟨0, 0, 0, 0⟩ ds = .ok start' :=
    exists_declare_iff.mpr ⟨(hperm.map _).nodup_iff.mp hnodup,
      fun d hd => hfree d (hperm.mem_iff.mpr hd)⟩
  obtain ⟨enums, henums⟩ := pass_resolveEnums.exists_eq_ok fun o ho => by
    obtain ⟨e, -, he⟩ :=
      exists_right_of_forall₂ h.made_enums.flip o ((hperm.filterMap _).mem_iff.mpr ho)
    exact ⟨e, he⟩
  obtain ⟨unions, hunions⟩ := (pass_resolveUnions start').exists_eq_ok fun o ho =>
    h.exists_resolveUnion hperm hstart hplain ho
  obtain ⟨declared', hdeclared⟩ := (pass_resolveStructs start' enums).exists_eq_ok fun o ho =>
    h.exists_resolveStruct hperm hstart henums hplain (List.mem_append_left _ ho) List.prefix_rfl
  have hroom := h.room hperm hstart henums hplain
  obtain ⟨⟨interfaces, g'⟩, hinterfaces⟩ := Room.resolveInterfaces (g := ⟨start', declared'⟩)
    (fun o ho => by
      obtain ⟨i, -, hi⟩ := exists_right_of_forall₂ h.madeFrom.interfaces.flip o
        ((hperm.filterMap _).mem_iff.mpr ho)
      exact ⟨i, hi⟩) hroom
  obtain ⟨hsound, -⟩ := sound_of_resolveInterfaces hstart hdeclared hinterfaces
  obtain ⟨modules, hmodules⟩ := (pass_resolveModules g'.scope).exists_eq_ok fun o ho => by
    obtain ⟨m, -, hm⟩ :=
      exists_right_of_forall₂ h.made_modules.flip o ((hperm.filterMap _).mem_iff.mpr ho)
    refine hm.exists_resolve fun name id hid => ?_
    have hname := List.mem_of_getElem? ((h.describes.interfaces _ _).mp hid)
    rw [h.layout_of_ne (by decide)] at hname
    obtain ⟨id', hid'⟩ := List.mem_iff_getElem?.mp (mem_declaredNames_perm hperm hname)
    exact ⟨id', hsound.describes.lookup_interfaces.mpr hid'⟩
  exact ⟨⟨p.name, [], enums, unions, g'.structs, interfaces, modules, g'.scope.types,
    g'.scope.interfaces⟩, start', declared', g',
    ⟨hstart, henums, hunions, hdeclared, hinterfaces, hmodules, rfl, rfl, rfl⟩⟩

end Passes

/-! ## Cycles -/

section

variable {s s' : Schema} {extra : Field → Prop}

/-- A struct or union is renumbered into one. -/
lemma Node.exists_of_sameNames {a : Node} {type : TypeRef} (h : SameNames s s' a.type type) :
    ∃ a' : Node, type = a'.type := by
  cases a with
  | struct i =>
    cases h with
    | struct _ _ => exact ⟨.struct _, rfl⟩
  | union i =>
    cases h with
    | union _ _ => exact ⟨.union _, rfl⟩

/-- A type that contains something has a counterpart where its name is known. -/
lemma ByValue.exists_sameNames (hwithin : s.layout.Within s'.layout) {a b : Node}
    (hab : ByValue s.structs s.unions a b) : ∃ a' : Node, SameNames s s' a.type a'.type := by
  obtain ⟨name, hname⟩ : ∃ name, s.layout.nameOf? a.type = some name := by
    cases hab with
    | field hstruct => exact ⟨_, List.getElem?_map.trans (congrArg (Option.map _) hstruct)⟩
    | variant hunion => exact ⟨_, List.getElem?_map.trans (congrArg (Option.map _) hunion)⟩
  obtain ⟨type, -, htype⟩ := exists_renumbered hname fun arena hmem => hwithin arena hmem
  obtain ⟨a', rfl⟩ := Node.exists_of_sameNames htype
  exact ⟨a', htype⟩

variable (h : Continues extra s s')
include h

/-- What a type contains, its counterpart contains as well. -/
lemma ByValue.exists_of_continues {a b a' : Node} (hab : ByValue s.structs s.unions a b)
    (ha : SameNames s s' a.type a'.type) :
    ∃ b', SameNames s s' b.type b'.type ∧ ByValue s'.structs s'.unions a' b' := by
  cases hab with
  | @field i struct f _ hstruct hf hoptional htype =>
    cases a' with
    | union j => cases ha
    | struct j =>
      have hfields := (h.struct i j ha).2
      cases ha with
      | struct _ hj =>
        obtain ⟨struct', hstruct', -⟩ := exists_of_getElem?_map hj
        rw [structType, structType, hstruct, hstruct'] at hfields
        obtain ⟨f', hf', hkeeps⟩ := hfields.kept f hf
        have hb := hkeeps.type
        rw [htype] at hb
        obtain ⟨b', htype'⟩ := Node.exists_of_sameNames hb
        exact ⟨b', htype' ▸ hb, .field hstruct' hf' (hkeeps.optional.trans hoptional) htype'⟩
  | @variant i union v _ hunion hv htype =>
    cases a' with
    | struct j => cases ha
    | union j =>
      have hvariants := (h.union i j ha).2
      cases ha with
      | union _ hj =>
        obtain ⟨union', hunion', -⟩ := exists_of_getElem?_map hj
        rw [unionType, unionType, hunion, hunion'] at hvariants
        obtain ⟨v', hv', hkeeps⟩ := hvariants.kept v hv
        have hb := hkeeps.type
        rw [htype] at hb
        obtain ⟨b', htype'⟩ := Node.exists_of_sameNames hb
        exact ⟨b', htype' ▸ hb, .variant hunion' hv' htype'⟩

lemma exists_transGen_of_continues {a b a' : Node}
    (hab : Relation.TransGen (ByValue s.structs s.unions) a b)
    (ha : SameNames s s' a.type a'.type) :
    ∃ b', SameNames s s' b.type b'.type ∧
      Relation.TransGen (ByValue s'.structs s'.unions) a' b' := by
  induction hab with
  | single hstep =>
    obtain ⟨b', hb', hstep'⟩ := hstep.exists_of_continues h ha
    exact ⟨b', hb', .single hstep'⟩
  | tail _ hstep ih =>
    obtain ⟨c', hc', hway⟩ := ih
    obtain ⟨b', hb', hstep'⟩ := hstep.exists_of_continues h hc'
    exact ⟨b', hb', hway.tail hstep'⟩

/-- A schema has no cycles if one in which it continues has none. -/
lemma firstCycle?_of_continues (hwithin : s.layout.Within s'.layout) (hunique : s'.layout.Unique)
    (hacyclic : firstCycle? s'.structs s'.unions = none) :
    firstCycle? s.structs s.unions = none := by
  rw [firstCycle?_eq_none_iff] at hacyclic ⊢
  intro a hcycle
  obtain ⟨b, hab, -⟩ := Relation.TransGen.head'_iff.mp hcycle
  obtain ⟨a', ha⟩ := hab.exists_sameNames hwithin
  obtain ⟨b', hb, hway⟩ := exists_transGen_of_continues h hcycle ha
  -- names leave no choice, so the way leads back
  have hsame : a'.type = b'.type := ha.right_unique hunique hb
  have hback : a' = b' := by
    cases a' <;> cases b' <;> cases hsame <;> rfl
  exact hacyclic a' (hback ▸ hway)

end

/-- **Resolution succeeds in every order.**  Where no type expression has a dot, the declarations
of a package that can be resolved can be resolved in any other order. -/
theorem exists_resolve_of_perm {p : Package} (hplain : p.Plain) {ds : List Package.Declaration}
    (hperm : p.declarations.Perm ds) (h : ∃ s, resolve p = .ok s) :
    ∃ s', resolve ⟨p.name, ds⟩ = .ok s' := by
  obtain ⟨s, h⟩ := h
  obtain ⟨⟨start, declared, g, hpasses⟩, hacyclic⟩ := exists_passes h
  obtain ⟨s', start', declared', g', hpasses'⟩ := hpasses.exists_passes_of_perm hplain hperm
  have hgrows : Package.GrowsInto (fun _ => False) ⟨p.name, ds⟩ p :=
    Package.growsInto_of_subset hperm.symm.subset
  have hcontinues : Continues (fun _ => False) s' s :=
    continues_of_growsInto hpasses'.madeFrom hpasses.madeFrom hgrows fun _ _ hd _ => hd
  refine exists_resolve_of_passes hpasses' (firstCycle?_of_continues hcontinues ?_ ?_ hacyclic)
  · exact within_of_growsInto hpasses'.madeFrom hpasses.madeFrom hgrows
  · exact hpasses.describes.unique

/-! ## Members in the order of their tags -/

section

variable {α β : Type} {tagOf : α → Tag} {tagOf' : β → Tag} {R : α → β → Prop} {l : List α}
  {l' : List β}

/-- Where all members have matches, those in the same place match. -/
lemma Matches.forall₂ (h : Matches R (fun _ => False) l l')
    (htag : ∀ a b, R a b → tagOf' b = tagOf a) (hl : l.Pairwise (tagOf · < tagOf ·))
    (hl' : l'.Pairwise (tagOf' · < tagOf' ·)) : List.Forall₂ R l l' := by
  induction l generalizing l' with
  | nil =>
    cases l' with
    | nil => exact .nil
    | cons b l' =>
      obtain ⟨a, ha, -⟩ := (h.others b List.mem_cons_self).resolve_right id
      cases ha
  | cons a l ih =>
    cases l' with
    | nil =>
      obtain ⟨b, hb, -⟩ := h.kept a List.mem_cons_self
      cases hb
    | cons b l' =>
      obtain ⟨ha, hl⟩ := List.pairwise_cons.mp hl
      obtain ⟨hb, hl'⟩ := List.pairwise_cons.mp hl'
      -- what matches one of the first members is no later than the other one
      have hab : R a b := by
        obtain ⟨b', hb', hab'⟩ := h.kept a List.mem_cons_self
        obtain ⟨a', ha', ha'b⟩ := (h.others b List.mem_cons_self).resolve_right id
        rcases List.mem_cons.mp hb' with rfl | hb'
        · exact hab'
        rcases List.mem_cons.mp ha' with rfl | ha'
        · exact ha'b
        have hlt := hb b' hb'
        rw [htag _ _ hab', htag _ _ ha'b] at hlt
        exact absurd (ha a' ha') hlt.not_gt
      have hfirst := htag a b hab
      refine .cons hab (ih ⟨fun x hx => ?_, fun y hy => ?_⟩ hl hl')
      · obtain ⟨y, hy, hxy⟩ := h.kept x (List.mem_cons_of_mem a hx)
        refine ⟨y, (List.mem_cons.mp hy).resolve_left ?_, hxy⟩
        rintro rfl
        rw [htag _ _ hxy] at hfirst
        exact (ha x hx).ne hfirst.symm
      · obtain ⟨x, hx, hxy⟩ := (h.others y (List.mem_cons_of_mem b hy)).resolve_right id
        refine .inl ⟨x, (List.mem_cons.mp hx).resolve_left ?_, hxy⟩
        rintro rfl
        rw [← htag _ _ hxy] at hfirst
        exact (hb y hy).ne hfirst

end

/-! ## Schemas that agree -/

/-- The types of two schemas that correspond are made of types that correspond, in the same order
and under the same names and tags. -/
inductive SameShape (s s' : Schema) (rel : TypeRef → TypeRef → Prop) :
    TypeRef → TypeRef → Prop where
  | prim (p : Primitive) : SameShape s s' rel (.prim p) (.prim p)
  | enum {i j : Nat} (h : s'.enumType j = s.enumType i) : SameShape s s' rel (.enum i) (.enum j)
  | union {i j : Nat} (hname : (s'.unionType j).name = (s.unionType i).name)
    (h : List.Forall₂ (Variant.Keeps rel) (s.unionType i).variants (s'.unionType j).variants) :
    SameShape s s' rel (.union i) (.union j)
  | struct {i j : Nat} (hname : (s'.structType j).name = (s.structType i).name)
    (h : List.Forall₂ (Field.Keeps rel) (s.structType i).fields (s'.structType j).fields) :
    SameShape s s' rel (.struct i) (.struct j)
  | array {a b : TypeRef} (h : rel a b) : SameShape s s' rel (.array a) (.array b)

/-- Types that correspond are called the same. -/
lemma typeName_eq {s s' : Schema} {rel : TypeRef → TypeRef → Prop}
    (hshape : ∀ a b, rel a b → SameShape s s' rel a b) {a b : TypeRef} (hab : rel a b) :
    s.typeName a = s'.typeName b := by
  induction a generalizing b with
  | prim p =>
    cases hshape _ _ hab
    rfl
  | enum i =>
    cases hshape _ _ hab with
    | enum h => rw [typeName, typeName, h]
  | union i =>
    cases hshape _ _ hab with
    | union hname => rw [typeName, typeName, hname]
  | struct i =>
    cases hshape _ _ hab with
    | struct hname => rw [typeName, typeName, hname]
  | array item ih =>
    cases hshape _ _ hab with
    | array h => rw [typeName, typeName, ih h]

/-- An interface whose parameter lists may have moved, and nothing else. -/
structure InterfaceType.Keeps (rel : TypeRef → TypeRef → Prop) (i i' : InterfaceType) : Prop where
  name : i'.name = i.name
  methods : List.Forall₂ (Method.Keeps rel) i.methods i'.methods

/-- A module whose interfaces may have moved, and nothing else. -/
structure ModuleType.Keeps (s s' : Schema) (m m' : ModuleType) : Prop where
  name : m'.name = m.name
  members : List.Forall₂ (Member.Keeps s s') m.members m'.members

/-- Two schemas that are the same apart from the positions at which types, interfaces and modules
stand: the same names, methods and routes find what corresponds. -/
structure Agree (s s' : Schema) : Prop where
  type : ∀ name, Option.Rel (SameNames s s') (s.type? name) (s'.type? name)
  shape : ∀ a b, SameNames s s' a b → SameShape s s' (SameNames s s') a b
  interface : ∀ name, Option.Rel (InterfaceType.Keeps (SameNames s s')) (s.interface? name)
    (s'.interface? name)
  module : ∀ name, Option.Rel (ModuleType.Keeps s s') (s.module? name) (s'.module? name)
  route : ∀ module member method, Option.Rel (Method.Keeps (SameNames s s'))
    (s.route? module member method) (s'.route? module member method)

section

variable {α β γ δ : Type} {R : α → β → Prop} {S : γ → δ → Prop} {o : Option α} {o' : Option β}

lemma rel_of_exists (h : ∀ a, o = some a → ∃ b, o' = some b ∧ R a b)
    (h' : ∀ b, o' = some b → ∃ a, o = some a) : Option.Rel R o o' := by
  cases o with
  | none =>
    cases o' with
    | none => exact .none
    | some b =>
      obtain ⟨a, ha⟩ := h' b rfl
      cases ha
  | some a =>
    obtain ⟨b, rfl, hab⟩ := h a rfl
    exact .some hab

lemma rel_bind {f : α → Option γ} {f' : β → Option δ} (h : Option.Rel R o o')
    (hf : ∀ a b, o = some a → o' = some b → R a b → Option.Rel S (f a) (f' b)) :
    Option.Rel S (o.bind f) (o'.bind f') := by
  cases h with
  | none => exact .none
  | some hab => exact hf _ _ rfl rfl hab

lemma find?_rel {nameOf : α → String} {nameOf' : β → String} {l : List α} {l' : List β}
    (hname : ∀ a b, R a b → nameOf' b = nameOf a) (h : List.Forall₂ R l l') (name : String) :
    Option.Rel R (l.find? (nameOf · = name)) (l'.find? (nameOf' · = name)) := by
  induction h with
  | nil => exact .none
  | cons hab _ ih =>
    rw [List.find?_cons, List.find?_cons, hname _ _ hab]
    split
    · exact .some hab
    · exact ih

end

lemma sameShape_of_continues {s s' : Schema} (h : Continues (fun _ => False) s s')
    (hs : s.Ascends) (hs' : s'.Ascends) {a b : TypeRef} (hab : SameNames s s' a b) :
    SameShape s s' (SameNames s s') a b := by
  have hab' := hab
  cases hab' with
  | prim p => exact .prim p
  | enum => exact .enum (h.enum _ _ hab)
  | union =>
    obtain ⟨hname, hvariants⟩ := h.union _ _ hab
    exact .union hname (hvariants.forall₂ (fun _ _ hkeeps => hkeeps.tag) (hs.unionType _)
      (hs'.unionType _))
  | struct =>
    obtain ⟨hname, hfields⟩ := h.struct _ _ hab
    exact .struct hname (hfields.forall₂ (fun _ _ hkeeps => hkeeps.tag) (hs.structType _)
      (hs'.structType _))
  | array hitem => exact .array hitem

section

variable {p p' : Package} {s s' : Schema} (hs : resolve p = .ok s) (hs' : resolve p' = .ok s')

include hs in
lemma InterfaceType.ascends_of_resolve {i : InterfaceType} (hi : i ∈ s.interfaces) :
    i.methods.Pairwise (·.tag < ·.tag) := by
  obtain ⟨o, -, hd⟩ := exists_right_of_forall₂ (resolve_represents hs).1.interfaces i hi
  exact hd.methods.ascends

include hs in
lemma ModuleType.ascends_of_resolve {m : ModuleType} (hm : m ∈ s.modules) :
    m.members.Pairwise (·.tag < ·.tag) := by
  obtain ⟨o, -, hd⟩ := exists_right_of_forall₂ (resolve_represents hs).1.modules m hm
  exact hd.members.ascends

include hs in
/-- The interface of a member is the one that its name finds. -/
lemma interface?_interfaceType {m : ModuleType} (hm : m ∈ s.modules) {n : Member}
    (hn : n ∈ m.members) : s.interface? (s.interfaceType n.interface).name =
      some (s.interfaceType n.interface) := by
  have hlt := (closed_of_resolve hs).members m hm n hn
  refine ((findsByName_of_resolve hs).interface _ _).mpr ⟨?_, rfl⟩
  rw [interfaceType, List.getElem?_eq_getElem hlt]
  exact List.getElem_mem hlt

section

variable (h : Continues (fun _ => False) s s') (h' : Continues (fun _ => False) s' s)
include hs hs' h h'

lemma interface_rel_of_continues (name : String) :
    Option.Rel (InterfaceType.Keeps (SameNames s s')) (s.interface? name) (s'.interface? name) := by
  have hfinds := findsByName_of_resolve hs
  have hfinds' := findsByName_of_resolve hs'
  refine rel_of_exists (fun i hi => ?_) fun i' hi' => ?_
  · obtain ⟨i', hi', hname, hmethods⟩ := h.interface name i hi
    refine ⟨i', hi', hname, hmethods.forall₂ (fun _ _ hkeeps => hkeeps.tag) ?_ ?_⟩
    · exact InterfaceType.ascends_of_resolve hs ((hfinds.interface _ _).mp hi).1
    · exact InterfaceType.ascends_of_resolve hs' ((hfinds'.interface _ _).mp hi').1
  · obtain ⟨i, hi, -⟩ := h'.interface name i' hi'
    exact ⟨i, hi⟩

lemma module_rel_of_continues (name : String) :
    Option.Rel (ModuleType.Keeps s s') (s.module? name) (s'.module? name) := by
  have hfinds := findsByName_of_resolve hs
  have hfinds' := findsByName_of_resolve hs'
  refine rel_of_exists (fun m hm => ?_) fun m' hm' => ?_
  · obtain ⟨m', hm', hname, hmembers⟩ := h.module name m hm
    refine ⟨m', hm', hname, hmembers.forall₂ (fun _ _ hkeeps => hkeeps.tag) ?_ ?_⟩
    · exact ModuleType.ascends_of_resolve hs ((hfinds.module _ _).mp hm).1
    · exact ModuleType.ascends_of_resolve hs' ((hfinds'.module _ _).mp hm').1
  · obtain ⟨m, hm, -⟩ := h'.module name m' hm'
    exact ⟨m, hm⟩

/-- Routes lead to methods that correspond, by way of modules and interfaces that do. -/
lemma route_rel_of_continues (module member method : String) :
    Option.Rel (Method.Keeps (SameNames s s')) (s.route? module member method)
      (s'.route? module member method) := by
  have hfinds := findsByName_of_resolve hs
  have hfinds' := findsByName_of_resolve hs'
  refine rel_bind (module_rel_of_continues hs hs' h h' module) fun m m' hm hm' hkeeps => ?_
  refine rel_bind (find?_rel (fun _ _ h => h.name) hkeeps.members member)
    fun n n' hn hn' hmember => ?_
  -- the interfaces of the members have one name
  have hi := interface?_interfaceType hs ((hfinds.module _ _).mp hm).1
    (List.mem_of_find?_eq_some hn)
  have hi' := interface?_interfaceType hs' ((hfinds'.module _ _).mp hm').1
    (List.mem_of_find?_eq_some hn')
  have hrel := interface_rel_of_continues hs hs' h h' (s.interfaceType n.interface).name
  rw [hi, ← hmember.interface, hi'] at hrel
  cases hrel with
  | some hkeeps => exact find?_rel (fun _ _ h => h.name) hkeeps.methods method

end

include hs hs'

/-- **Order of declaration.**  The schemas of packages that have the same declarations agree. -/
theorem agree_of_subset (h : p.declarations ⊆ p'.declarations)
    (h' : p'.declarations ⊆ p.declarations) : s.Agree s' := by
  have hcontinues : Continues (fun _ => False) s s' :=
    continues_of_growsInto (resolve_madeFrom hs) (resolve_madeFrom hs')
      (Package.growsInto_of_subset h) fun _ _ hd _ => hd
  have hcontinues' : Continues (fun _ => False) s' s :=
    continues_of_growsInto (resolve_madeFrom hs') (resolve_madeFrom hs)
      (Package.growsInto_of_subset h') fun _ _ hd _ => hd
  constructor
  · refine fun name => rel_of_exists (hcontinues.type name) fun b hb => ?_
    obtain ⟨a, ha, -⟩ := hcontinues'.type name b hb
    exact ⟨a, ha⟩
  · exact fun a b =>
      sameShape_of_continues hcontinues (ascends_of_resolve hs) (ascends_of_resolve hs')
  · exact interface_rel_of_continues hs hs' hcontinues hcontinues'
  · exact module_rel_of_continues hs hs' hcontinues hcontinues'
  · exact route_rel_of_continues hs hs' hcontinues hcontinues'

end

end Schema

end SchemaRpc
