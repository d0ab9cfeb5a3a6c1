/-
# When resolution succeeds

The passes of resolution succeed where what they ask for is there: names that are free, tags that
can be given, types and interfaces that are known, and literals that fit.  So what has been
resolved once can be resolved again wherever as much is known.

* `exists_declare_iff` says when declarations can be declared,
* `UnionType.Made.exists_resolve` and its like say so of the parts,
* `Room` is what the parameter lists of methods ask for, one after the other.
-/
import SchemaRpc.Proofs.Schema.Resolution

namespace SchemaRpc

namespace Schema

/-! ## Names -/

/-- A name that is neither in use nor that of a primitive type. -/
def Scope.Free (s : Scope) (name : String) : Prop :=
  Primitive.ofName? name = none ∧ name ∉ s.claimed

section

variable {s s' : Scope} {n : Counts} {d : Package.Declaration} {ds : List Package.Declaration}

lemma Scope.Free.claim_eq_ok {name : String} (h : s.Free name) :
    s.claim name = .ok ⟨name :: s.claimed, s.types, s.interfaces⟩ := by
  unfold claim
  rw [h.1, if_neg (by simpa using h.2)]

variable (n ds) in
lemma declare_cons_of_free (h : s.Free d.name) :
    ∃ s₁ n₁, s₁.claimed = d.name :: s.claimed ∧ declare s n (d :: ds) = declare s₁ n₁ ds := by
  rw [declare, h.claim_eq_ok]
  cases d <;> exact ⟨_, _, rfl, rfl⟩

lemma Scope.free_cons_iff {s₁ : Scope} {name other : String}
    (h : s₁.claimed = other :: s.claimed) : s₁.Free name ↔ name ≠ other ∧ s.Free name := by
  rw [Free, Free, h, List.mem_cons, not_or]
  exact and_left_comm

/-- Declarations can be declared just if their names are free and differ. -/
lemma exists_declare_iff : (∃ s', declare s n ds = .ok s') ↔
    (ds.map (·.name)).Nodup ∧ ∀ d ∈ ds, s.Free d.name := by
  induction ds generalizing s n with
  | nil => simp [declare]
  | cons d ds ih =>
    rw [List.map_cons, List.nodup_cons, List.forall_mem_cons]
    by_cases hfree : s.Free d.name
    · obtain ⟨s₁, n₁, hclaimed, hdeclare⟩ := declare_cons_of_free n ds hfree
      simp only [hdeclare, ih, Scope.free_cons_iff hclaimed, List.mem_map, not_exists, not_and]
      constructor
      · rintro ⟨hnodup, hothers⟩
        exact ⟨⟨fun other hother => (hothers other hother).1, hnodup⟩, hfree,
          fun other hother => (hothers other hother).2⟩
      · rintro ⟨⟨hne, hnodup⟩, -, hothers⟩
        exact ⟨hnodup, fun other hother => ⟨hne other hother, hothers other hother⟩⟩
    · refine iff_of_false ?_ fun h => hfree h.2.1
      rintro ⟨s', h⟩
      rw [declare] at h
      split at h
      · cases h
      · rename_i s₁ hclaim
        obtain ⟨hprimitive, hfresh, -⟩ := Scope.claim_eq_ok hclaim
        exact hfree ⟨hprimitive, hfresh⟩

/-- Only the names of declarations come into use. -/
lemma mem_claimed_of_declare (h : declare s n ds = .ok s') {name : String}
    (hname : name ∈ s'.claimed) : name ∈ s.claimed ∨ name ∈ ds.map (·.name) := by
  induction ds generalizing s n with
  | nil =>
    cases h
    exact .inl hname
  | cons d ds ih =>
    have hfree := (exists_declare_iff.mp ⟨s', h⟩).2 d List.mem_cons_self
    obtain ⟨s₁, n₁, hclaimed, hdeclare⟩ := declare_cons_of_free n ds hfree
    rw [hdeclare] at h
    rw [List.map_cons, List.mem_cons]
    rcases ih h with hmem | hmem
    · rw [hclaimed, List.mem_cons] at hmem
      exact hmem.elim (fun heq => .inr (.inl heq)) .inl
    · exact .inr (.inr hmem)

end

/-! ## Types -/

/-- A type that is found is still found when others have been introduced. -/
lemma Scope.typeOf_of_prefix {s s' : Scope} (h : s.types <+: s'.types) {owner : String}
    {e : Package.TypeExpr} {type : TypeRef} (htype : s.typeOf owner e = .ok type) :
    s'.typeOf owner e = .ok type := by
  obtain ⟨more, hmore⟩ := h
  induction e generalizing type with
  | named name =>
    rw [typeOf] at htype ⊢
    rw [← hmore]
    cases hp : Primitive.ofName? name with
    | some p =>
      rw [hp] at htype
      exact htype
    | none =>
      rw [hp] at htype
      cases hlookup : s.types.lookup name with
      | none =>
        rw [hlookup] at htype
        cases htype
      | some found =>
        rw [hlookup] at htype
        rw [List.lookup_append, hlookup]
        exact htype
  | array item ih =>
    obtain ⟨inner, hinner, rfl⟩ := Outcome.map_eq_ok_iff.mp htype
    exact Outcome.map_eq_ok_iff.mpr ⟨inner, ih hinner, rfl⟩

/-- A type that an expression denotes is found. -/
lemma Denotes.typeOf_eq_ok {s : Scope} {names : Layout} (hs : s.Describes names) (owner : String)
    {e : Package.TypeExpr} {type : TypeRef} (h : Denotes s.types e type) :
    s.typeOf owner e = .ok type := by
  induction h with
  | primitive hp => rw [Scope.typeOf, hp]
  | declared hp h =>
    have hlookup := hs.lookup_types.mpr ((hs.types _ _).mp h)
    rw [Scope.typeOf, hp, hlookup]
  | array _ ih => exact Outcome.map_eq_ok_iff.mpr ⟨_, ih, rfl⟩

lemma exists_resolveDefault {enums : List EnumType} (owner : String) {d : Package.Field}
    {type : TypeRef} {default : Option Value}
    (h : Option.Rel (fun value literal => literalValue enums type literal = .ok value) default
      d.literal) : ∃ value, resolveDefault enums owner d type = .ok value := by
  unfold resolveDefault
  generalize d.literal = literal at h ⊢
  cases h with
  | none => exact ⟨none, rfl⟩
  | @some value literal hvalue =>
    refine ⟨some value, ?_⟩
    dsimp only
    rw [hvalue]

/-! ## Parts -/

section

variable {s : Scope} {types : List (String × TypeRef)} {enums enums' : List EnumType}

/-- Members that have been made once can be made again, if none is refused for itself. -/
lemma Made.exists_eq_ok {α β γ : Type} {tagOf : α → Tag} {R : α → β → Prop}
    {entry : β → String × Option Tag} {reserved : List Tag} {members : List α} {declared : List β}
    (h : Made tagOf R entry reserved members declared) {owner : String} {tagOf' : γ → Tag}
    {resolveOne : β → Tag → Resolved γ} {pass : Tagging → List β → Resolved (List γ)}
    (hpass : Numbered owner entry tagOf' resolveOne pass)
    (hone : ∀ d ∈ declared, ∀ a, R a d → ∀ tag, ∃ b, resolveOne d tag = .ok b) :
    ∃ out, pass (.start reserved) declared = .ok out := by
  obtain ⟨l, -, htags, hR⟩ := h.tagged
  refine hpass.exists_eq_ok htags fun d hd tag => ?_
  obtain ⟨a, -, had⟩ := exists_right_of_forall₂ hR.flip d hd
  exact hone d hd a had tag

lemma UnionType.Made.exists_resolve {union : UnionType} {o : Package.Owner Package.Variant}
    (h : union.Made types o)
    (htypes : ∀ d ∈ o.members, ∀ type, Denotes types d.type type →
      ∃ type', s.typeOf o.name d.type = .ok type') :
    ∃ u, resolveUnion s o.name o.members o.reserved = .ok u := by
  obtain ⟨out, hout⟩ := h.variants.exists_eq_ok (numbered_resolveVariants s o.name)
    fun d hd v hv tag => by
      obtain ⟨type, htype⟩ := htypes d hd _ hv.type
      exact ⟨_, Outcome.map_eq_ok_iff.mpr ⟨type, htype, rfl⟩⟩
  refine ⟨⟨o.name, sortByTag (·.tag) out⟩, ?_⟩
  unfold resolveUnion
  rw [if_neg (by simpa using h.ne_nil)]
  refine Outcome.bind_eq_ok_iff.mpr ⟨(), checkUnique_eq_ok_iff.mpr h.variants.names, ?_⟩
  exact Outcome.bind_eq_ok_iff.mpr ⟨out, hout, rfl⟩

lemma StructType.Made.exists_resolve {struct : StructType} {o : Package.Owner Package.Field}
    (h : struct.Made types enums o)
    (hfields : ∀ d ∈ o.members, ∀ type, Denotes types d.type type →
      ∃ type', s.typeOf o.name d.type = .ok type' ∧
        literalValue enums type = literalValue enums' type') :
    ∃ t, resolveStruct s enums' o.name o.members o.reserved = .ok t := by
  obtain ⟨out, hout⟩ := h.fields.exists_eq_ok (numbered_resolveFieldList s enums' o.name)
    fun d hd f hf tag => by
      obtain ⟨type, htype, hliteral⟩ := hfields d hd _ hf.type
      have hdefault := hf.default
      rw [hliteral] at hdefault
      obtain ⟨default, hdefault⟩ := exists_resolveDefault o.name hdefault
      refine ⟨⟨d.name, tag, type, d.optional, default⟩, ?_⟩
      refine Outcome.bind_eq_ok_iff.mpr ⟨type, htype, ?_⟩
      exact Outcome.bind_eq_ok_iff.mpr ⟨default, hdefault, rfl⟩
  refine ⟨⟨o.name, sortByTag (·.tag) out⟩, ?_⟩
  refine Outcome.bind_eq_ok_iff.mpr ⟨(), checkUnique_eq_ok_iff.mpr h.fields.names, ?_⟩
  exact Outcome.bind_eq_ok_iff.mpr ⟨out, hout, rfl⟩

lemma ModuleType.Made.exists_resolve {interfaces : List (String × Nat)} {module : ModuleType}
    {o : Package.Owner Package.Member} (h : module.Made interfaces o)
    (hinterfaces : ∀ name id, (name, id) ∈ interfaces →
      ∃ id', s.interfaces.lookup name = some id') :
    ∃ m, resolveModule s o.name o.members = .ok m := by
  obtain ⟨out, hout⟩ := h.members.exists_eq_ok (numbered_resolveMembers s o.name)
    fun d _ m hm tag => by
      obtain ⟨id, hid⟩ := hinterfaces _ _ hm.interface
      refine ⟨⟨d.name, tag, id⟩, ?_⟩
      rw [resolveMember, hid]
  refine ⟨⟨o.name, sortByTag (·.tag) out⟩, ?_⟩
  refine Outcome.bind_eq_ok_iff.mpr ⟨(), checkUnique_eq_ok_iff.mpr h.members.names, ?_⟩
  exact Outcome.bind_eq_ok_iff.mpr ⟨out, hout, rfl⟩

lemma Pass.exists_eq_ok {α β : Type} {owner? : Package.Declaration → Option (Package.Owner α)}
    {resolveOne : Package.Owner α → Resolved β}
    {pass : List Package.Declaration → Resolved (List β)} (hpass : Pass owner? resolveOne pass)
    {ds : List Package.Declaration}
    (hone : ∀ o ∈ ds.filterMap owner?, ∃ b, resolveOne o = .ok b) : ∃ out, pass ds = .ok out := by
  induction ds with
  | nil => exact ⟨[], hpass.nil⟩
  | cons d ds ih =>
    rw [hpass.cons]
    rw [List.filterMap_cons] at hone
    cases howner : owner? d with
    | none =>
      rw [howner] at hone
      exact ih hone
    | some owner =>
      rw [howner] at hone
      obtain ⟨b, hb⟩ := hone owner List.mem_cons_self
      obtain ⟨out, hout⟩ := ih fun o ho => hone o (List.mem_cons_of_mem owner ho)
      refine ⟨b :: out, Outcome.bind_eq_ok_iff.mpr ⟨b, hb, ?_⟩⟩
      exact Outcome.bind_eq_ok_iff.mpr ⟨out, hout, rfl⟩

end

/-! ## Parameter lists -/

/-- There is room for parameter lists: their names differ and are free, and each can be resolved
wherever the types of the start are known first. -/
structure Room (start : Scope) (enums : List EnumType) (s : Scope)
    (lists : List (Package.Owner Package.Field)) : Prop where
  types : start.types <+: s.types
  names : (lists.map (·.name)).Nodup
  free : ∀ o ∈ lists, s.Free o.name
  resolves : ∀ o ∈ lists, ∀ s' : Scope, start.types <+: s'.types →
    ∃ t, resolveStruct s' enums o.name o.members o.reserved = .ok t

section

variable {start : Scope} {enums : List EnumType} {g : Growing}
  {more : List (Package.Owner Package.Field)}

lemma Room.addParameters {name : String} {parameters : List Package.Field}
    (h : Room start enums g.scope (⟨name, parameters, []⟩ :: more)) :
    ∃ r, addParameters enums g name parameters = .ok r ∧ Room start enums r.2.scope more := by
  obtain ⟨htypes, hnames, hfree, hresolves⟩ := h
  rw [List.map_cons, List.nodup_cons] at hnames
  rw [List.forall_mem_cons] at hfree hresolves
  have hclaim := hfree.1.claim_eq_ok
  obtain ⟨struct, hstruct⟩ := hresolves.1 ⟨name :: g.scope.claimed, g.scope.types,
    g.scope.interfaces⟩ htypes
  refine ⟨_, Outcome.bind_eq_ok_iff.mpr ⟨_, hclaim,
    Outcome.bind_eq_ok_iff.mpr ⟨struct, hstruct, rfl⟩⟩, ?_, hnames.2, ?_, hresolves.2⟩
  · exact htypes.trans (List.prefix_append _ _)
  · intro o ho
    refine (Scope.free_cons_iff rfl).mpr ⟨fun heq => hnames.1 ?_, hfree.2 o ho⟩
    exact List.mem_map.mpr ⟨o, ho, heq⟩

lemma Room.addParameters? {name : String} {parameters : Option (List Package.Field)}
    (h : Room start enums g.scope (parameters.toList.map (⟨name, ·, []⟩) ++ more)) :
    ∃ r, addParameters? enums g name parameters = .ok r ∧ Room start enums r.2.scope more := by
  cases parameters with
  | none => exact ⟨(none, g), rfl, h⟩
  | some parameters =>
    obtain ⟨⟨id, g'⟩, hadd, hroom⟩ := Room.addParameters h
    exact ⟨(some id, g'), Outcome.bind_eq_ok_iff.mpr ⟨(id, g'), hadd, rfl⟩, hroom⟩

lemma Room.resolveMethods {owner : String} {t : Tagging} {ms : List Package.Method}
    {tags : List Tag} (htags : t.assignAll (ms.map fun d => (d.name, d.tag)) = .ok tags)
    (h : Room start enums g.scope (ms.flatMap (methodParameters owner) ++ more)) :
    ∃ r, resolveMethods enums owner g t ms = .ok r ∧ Room start enums r.2.scope more := by
  induction ms generalizing g t tags with
  | nil => exact ⟨([], g), rfl, h⟩
  | cons m ms ih =>
    obtain ⟨tag, t', rest, htag, hrest, rfl⟩ := Tagging.assignAll_cons_eq_ok.mp htags
    rw [List.flatMap_cons, methodParameters, List.cons_append, List.cons_append, List.append_assoc,
      List.append_assoc] at h
    obtain ⟨⟨args, g₁⟩, hargs, h⟩ := Room.addParameters h
    obtain ⟨⟨reply, g₂⟩, hreply, h⟩ := Room.addParameters? h
    obtain ⟨⟨exception, g₃⟩, hexception, h⟩ := Room.addParameters? h
    obtain ⟨⟨methods, g₄⟩, hmethods, h⟩ := ih hrest h
    refine ⟨(⟨m.name, tag, args, reply, exception⟩ :: methods, g₄), ?_, h⟩
    refine Outcome.bind_eq_ok_iff.mpr ⟨(tag, t'), nextTag_eq_ok_iff.mpr htag, ?_⟩
    refine Outcome.bind_eq_ok_iff.mpr ⟨(args, g₁), hargs, ?_⟩
    refine Outcome.bind_eq_ok_iff.mpr ⟨(reply, g₂), hreply, ?_⟩
    refine Outcome.bind_eq_ok_iff.mpr ⟨(exception, g₃), hexception, ?_⟩
    exact Outcome.bind_eq_ok_iff.mpr ⟨(methods, g₄), hmethods, rfl⟩

lemma InterfaceType.Made.exists_resolve {stands : Nat → Package.Owner Package.Field → Prop}
    {interface : InterfaceType} {o : Package.Owner Package.Method} (h : interface.Made stands o)
    (hroom : Room start enums g.scope (o.members.flatMap (methodParameters o.name) ++ more)) :
    ∃ r, resolveInterface enums g o.name o.members = .ok r ∧ Room start enums r.2.scope more := by
  obtain ⟨l, -, htags, -⟩ := h.methods.tagged
  obtain ⟨⟨methods, g'⟩, hmethods, hroom⟩ := hroom.resolveMethods htags
  refine ⟨(⟨o.name, sortByTag (·.tag) methods⟩, g'), ?_, hroom⟩
  refine Outcome.bind_eq_ok_iff.mpr ⟨(), checkUnique_eq_ok_iff.mpr h.methods.names, ?_⟩
  exact Outcome.bind_eq_ok_iff.mpr ⟨(methods, g'), hmethods, rfl⟩

/-- Interfaces that have been made once can be made again where there is room for their parameter
lists. -/
lemma Room.resolveInterfaces {stands : Nat → Package.Owner Package.Field → Prop}
    {ds : List Package.Declaration}
    (hmade : ∀ o ∈ ds.filterMap declaredInterface?, ∃ i, InterfaceType.Made stands i o)
    (h : Room start enums g.scope (parameterLists (ds.filterMap declaredInterface?))) :
    ∃ r, resolveInterfaces enums g ds = .ok r := by
  induction ds generalizing g with
  | nil => exact ⟨([], g), rfl⟩
  | cons d ds ih =>
    cases d with
    | interface name ms =>
      have hcons : (Package.Declaration.interface name ms :: ds).filterMap declaredInterface? =
          ⟨name, ms, []⟩ :: ds.filterMap declaredInterface? := rfl
      rw [hcons, List.forall_mem_cons] at hmade
      rw [hcons, parameterLists, List.flatMap_cons] at h
      obtain ⟨i, hi⟩ := hmade.1
      obtain ⟨⟨interface, g₁⟩, hinterface, h⟩ := hi.exists_resolve h
      obtain ⟨⟨rest, g₂⟩, hrest⟩ := ih hmade.2 h
      refine ⟨(interface :: rest, g₂), ?_⟩
      refine Outcome.bind_eq_ok_iff.mpr ⟨(interface, g₁), hinterface, ?_⟩
      exact Outcome.bind_eq_ok_iff.mpr ⟨(rest, g₂), hrest, rfl⟩
    | enum | union | struct | module => exact ih hmade h

end

end Schema

end SchemaRpc
