/-
# Names that are claimed twice

A name is refused where it is claimed and nowhere else.  What is wrong within one owner, with the
names, tags, values, types or defaults of its members, is reported as such; so of the passes over
the declarations only two can report a name that is declared twice, the one over all declarations
and the one that adds the parameter lists of methods.

* `declare_eq_error` says which name the first of them refuses,
* `Within` says that a result is no such report, and has a lemma for each part of a package.
-/
import SchemaRpc.Proofs.Schema.Success

namespace SchemaRpc

namespace Schema

open Outcome

/-! ## Declarations -/

lemma Scope.claim_eq_error {s : Scope} {name : String} {e : ResolveError}
    (h : s.claim name = .error e) :
    e = .duplicateDeclaration name ∧
      ((Primitive.ofName? name).isSome ∨ name ∈ s.claimed) := by
  unfold claim at h
  split at h
  · rename_i hname
    cases h
    exact ⟨rfl, by simpa using hname⟩
  · cases h

/-- What is refused among declarations is a name that is in use or stood further in front. -/
lemma declare_eq_error {s : Scope} {n : Counts} {ds : List Package.Declaration} {e : ResolveError}
    (h : declare s n ds = .error e) :
    ∃ front d back, ds = front ++ d :: back ∧ e = .duplicateDeclaration d.name ∧
      ((Primitive.ofName? d.name).isSome ∨ d.name ∈ s.claimed ∨
        d.name ∈ front.map (·.name)) := by
  induction ds generalizing s n with
  | nil => cases h
  | cons d ds ih =>
    by_cases hfree : s.Free d.name
    · obtain ⟨s₁, n₁, hclaimed, hdeclare⟩ := declare_cons_of_free n ds hfree
      rw [hdeclare] at h
      obtain ⟨front, d', back, rfl, rfl, hname⟩ := ih h
      refine ⟨d :: front, d', back, rfl, rfl, hname.imp_right fun hname => ?_⟩
      rw [hclaimed, List.mem_cons] at hname
      rw [List.map_cons, List.mem_cons]
      rcases hname with (heq | hmem) | hmem
      · exact .inr (.inl heq)
      · exact .inl hmem
      · exact .inr (.inr hmem)
    · rw [declare] at h
      cases hclaim : s.claim d.name with
      | error e' =>
        rw [hclaim] at h
        cases h
        obtain ⟨rfl, hname⟩ := Scope.claim_eq_error hclaim
        exact ⟨[], d, ds, rfl, rfl, hname.imp_right .inl⟩
      | ok s₁ =>
        obtain ⟨hprimitive, hfresh, -⟩ := Scope.claim_eq_ok hclaim
        exact absurd ⟨hprimitive, hfresh⟩ hfree

/-! ## Parts -/

/-- A result that is no report of a name that is declared twice. -/
def Within {α : Type} (x : Resolved α) : Prop :=
  FailsWith (fun e => ∀ name, e ≠ .duplicateDeclaration name) x

section

variable {α β : Type} {owner : String}

lemma Within.map {x : Resolved α} (h : Within x) (f : α → β) : Within (x.map f) :=
  FailsWith.map h f

lemma Within.bind {x : Resolved α} (h : Within x) {f : α → Resolved β}
    (hf : ∀ a, x = .ok a → Within (f a)) : Within (x >>= f) :=
  FailsWith.bind h hf

lemma within_checkUnique (names : List String) : Within (checkUnique owner names) := by
  unfold checkUnique
  split
  · exact failsWith_error (by simp)
  · exact failsWith_ok ()

lemma within_nextTag (tags : Tagging) (member : String) (explicit : Option Tag) :
    Within (nextTag owner tags member explicit) := by
  refine failsWith_mapError fun fault name => ?_
  cases fault <;> simp [TagFault.toError]

lemma within_typeOf (s : Scope) (e : Package.TypeExpr) : Within (s.typeOf owner e) := by
  induction e with
  | named name =>
    rw [Scope.typeOf]
    split
    · exact failsWith_ok _
    · split
      · exact failsWith_ok _
      · exact failsWith_error (by simp)
  | array item ih => exact ih.map _

lemma within_resolveDefault (enums : List EnumType) (f : Package.Field) (type : TypeRef) :
    Within (resolveDefault enums owner f type) := by
  unfold resolveDefault
  split
  · exact failsWith_ok _
  · split
    · exact failsWith_ok _
    · exact failsWith_error (by simp)

lemma within_resolveLabels (n : Numbering) (labels : List Package.Label) :
    Within (resolveLabels owner n labels) := by
  induction labels generalizing n with
  | nil => exact failsWith_ok _
  | cons l labels ih =>
    rw [resolveLabels]
    refine Within.bind (failsWith_mapError fun fault name => ?_) fun given _ =>
      (ih given.2).bind fun _ _ => failsWith_ok _
    cases fault <;> simp [NumberFault.toError]

/-- A pass over members goes no further than each of them. -/
lemma Numbered.within {entry : β → String × Option Tag} {tagOf : α → Tag}
    {resolveOne : β → Tag → Resolved α} {pass : Tagging → List β → Resolved (List α)}
    (hpass : Numbered owner entry tagOf resolveOne pass)
    (hone : ∀ d tag, Within (resolveOne d tag)) (t : Tagging) (ds : List β) :
    Within (pass t ds) := by
  induction ds generalizing t with
  | nil =>
    rw [hpass.nil]
    exact failsWith_ok _
  | cons d ds ih =>
    rw [hpass.cons]
    exact (within_nextTag t _ _).bind fun next _ =>
      (hone d next.1).bind fun _ _ => (ih next.2).bind fun _ _ => failsWith_ok _

lemma within_resolveEnum (labels : List Package.Label) : Within (resolveEnum owner labels) :=
  (within_checkUnique _).bind fun _ _ => (within_resolveLabels _ _).bind fun _ _ => failsWith_ok _

lemma within_resolveUnion (s : Scope) (variants : List Package.Variant) (reserved : List Tag) :
    Within (resolveUnion s owner variants reserved) := by
  have hvariants := (numbered_resolveVariants s owner).within
    (fun d tag => (within_typeOf s d.type).map _) (.start reserved) variants
  unfold resolveUnion
  split
  · exact failsWith_error (by simp)
  · exact (within_checkUnique _).bind fun _ _ => hvariants.bind fun _ _ => failsWith_ok _

lemma within_resolveStruct (s : Scope) (enums : List EnumType) (fields : List Package.Field)
    (reserved : List Tag) : Within (resolveStruct s enums owner fields reserved) := by
  have hfields := (numbered_resolveFieldList s enums owner).within
    (fun d tag => (within_typeOf s d.type).bind fun type _ =>
      (within_resolveDefault enums d type).bind fun _ _ => failsWith_ok _) (.start reserved) fields
  exact (within_checkUnique _).bind fun _ _ => hfields.bind fun _ _ => failsWith_ok _

lemma within_resolveModule (s : Scope) (members : List Package.Member) :
    Within (resolveModule s owner members) := by
  have hmembers := (numbered_resolveMembers s owner).within (fun d tag => by
    unfold resolveMember
    split
    · exact failsWith_error (by simp)
    · exact failsWith_ok _) (.start []) members
  exact (within_checkUnique _).bind fun _ _ => hmembers.bind fun _ _ => failsWith_ok _

/-- A pass over declarations goes no further than each of them. -/
lemma Pass.within {owner? : Package.Declaration → Option (Package.Owner α)}
    {resolveOne : Package.Owner α → Resolved β}
    {pass : List Package.Declaration → Resolved (List β)} (hpass : Pass owner? resolveOne pass)
    (hone : ∀ o, Within (resolveOne o)) (ds : List Package.Declaration) : Within (pass ds) := by
  induction ds with
  | nil =>
    rw [hpass.nil]
    exact failsWith_ok _
  | cons d ds ih =>
    rw [hpass.cons]
    cases owner? d with
    | none => exact ih
    | some o => exact (hone o).bind fun _ _ => ih.bind fun _ _ => failsWith_ok _

end

end Schema

end SchemaRpc
