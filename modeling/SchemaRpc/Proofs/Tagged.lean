/-
# Finding members by their keys

Members are kept in lists and found by their keys, and so is what the fields of a record
contribute.  When no two members of a list share a key, looking through the list for the key of a
member finds the member.

Fields and variants stand in ascending order of their tags, and looking for a tag halves the list
at each step.  What it finds is always a member with the tag; that it finds every member rests on
the order, `searchByTag_tagOf`.
-/
import Mathlib.Data.List.Nodup
import Mathlib.Order.Fin.Basic
import SchemaRpc.Schema.Basic

namespace SchemaRpc

section

variable {α β : Type} (tagOf : α → Tag)

/-- The key of a member finds the member. -/
lemma find?_keyOf {κ : Type} [DecidableEq κ] (keyOf : α → κ) {l : List α}
    (h : (l.map keyOf).Nodup) {a : α} (ha : a ∈ l) : l.find? (keyOf · = keyOf a) = some a := by
  induction l with
  | nil => cases ha
  | cons b l ih =>
    rw [List.map_cons, List.nodup_cons] at h
    rcases List.mem_cons.mp ha with rfl | ha
    · simp
    · have hne : keyOf b ≠ keyOf a := fun heq => h.1 (heq ▸ List.mem_map_of_mem ha)
      simpa [hne] using ih h.2 ha

/-- A key finds the one member that has it. -/
lemma find?_eq_some_iff_keyOf {κ : Type} [DecidableEq κ] (keyOf : α → κ) {l : List α}
    (h : (l.map keyOf).Nodup) {k : κ} {a : α} :
    l.find? (keyOf · = k) = some a ↔ a ∈ l ∧ keyOf a = k := by
  constructor
  · intro hfind
    exact ⟨List.mem_of_find?_eq_some hfind, by simpa using List.find?_some hfind⟩
  · rintro ⟨ha, rfl⟩
    exact find?_keyOf keyOf h ha

/-- Looking up a tag among what members carry is finding the member. -/
lemma lookup_map_tagOf (g : α → β) (l : List α) (t : Tag) :
    (l.map fun a => (tagOf a, g a)).lookup t = (l.find? (tagOf · = t)).map g := by
  induction l with
  | nil => rfl
  | cons b l ih =>
    by_cases h : t = tagOf b
    · simp [h]
    · have hne : (t == tagOf b) = false := by simpa using h
      simp [List.lookup_cons, hne, ih, Ne.symm h]

end

namespace Schema

section

variable {α : Type} {tagOf : α → Tag} {tag : Tag} {steps : Nat} {members : List α} {a : α}

/-- What is found is a member with the tag, in whatever order the members stand. -/
lemma mem_of_searchByTag (h : searchByTag tagOf tag steps members = some a) :
    a ∈ members ∧ tagOf a = tag := by
  induction steps generalizing members with
  | zero => cases h
  | succ steps ih =>
    rw [searchByTag] at h
    split at h
    · cases h
    · rename_i middle behind hdrop
      have hsub : ∀ b ∈ middle :: behind, b ∈ members := fun b hb =>
        List.mem_of_mem_drop (hdrop ▸ hb)
      split at h
      · rename_i htag
        cases h
        exact ⟨hsub a List.mem_cons_self, htag.symm⟩
      · split at h
        · obtain ⟨ha, htag⟩ := ih h
          exact ⟨List.mem_of_mem_take ha, htag⟩
        · obtain ⟨ha, htag⟩ := ih h
          exact ⟨hsub a (List.mem_cons_of_mem middle ha), htag⟩

/-- Among members in ascending order of their tags, the tag of a member finds the member. -/
lemma searchByTag_tagOf (hmembers : members.Pairwise (tagOf · < tagOf ·))
    (hsteps : members.length ≤ steps) (ha : a ∈ members) :
    searchByTag tagOf (tagOf a) steps members = some a := by
  induction steps generalizing members with
  | zero =>
    rw [List.length_eq_zero_iff.mp (Nat.le_zero.mp hsteps)] at ha
    cases ha
  | succ steps ih =>
    have hpos := List.length_pos_of_mem ha
    have hhalf : members.length / 2 < members.length := by omega
    have hsplit := List.take_append_drop (members.length / 2) members
    rw [searchByTag]
    cases hdrop : members.drop (members.length / 2) with
    | nil => exact absurd (List.drop_eq_nil_iff.mp hdrop) (not_le.mpr hhalf)
    | cons middle behind =>
      rw [hdrop] at hsplit
      have hlength := congrArg List.length hsplit
      rw [List.length_append, List.length_take_of_le hhalf.le, List.length_cons] at hlength
      rw [← hsplit, List.pairwise_append, List.pairwise_cons] at hmembers
      obtain ⟨hfront, ⟨hmiddle, hbehind⟩, hacross⟩ := hmembers
      rw [← hsplit, List.mem_append, List.mem_cons] at ha
      dsimp only
      -- the order tells on which side of the middle the member stands
      rcases ha with ha | rfl | ha
      · have hlt := hacross a ha middle List.mem_cons_self
        rw [if_neg hlt.ne, if_pos hlt]
        exact ih hfront (by rw [List.length_take_of_le hhalf.le]; omega) ha
      · rw [if_pos rfl]
      · have hlt := hmiddle a ha
        rw [if_neg hlt.ne', if_neg hlt.not_gt]
        exact ih hbehind (by omega) ha

end

variable {struct : StructType} {union : UnionType}

/-- The fields of a struct stand in strictly ascending order of their tags. -/
def StructType.Ascends (struct : StructType) : Prop := struct.fields.Pairwise (·.tag < ·.tag)

/-- The variants of a union stand in strictly ascending order of their tags. -/
def UnionType.Ascends (union : UnionType) : Prop := union.variants.Pairwise (·.tag < ·.tag)

/-- Strictly ascending tags are different. -/
lemma StructType.Ascends.nodup_tags (h : struct.Ascends) : (struct.fields.map (·.tag)).Nodup :=
  List.pairwise_map.mpr (h.imp fun hlt => hlt.ne)

lemma StructType.mem_of_fieldByTag? {t : Tag} {f : Field} (h : struct.fieldByTag? t = some f) :
    f ∈ struct.fields ∧ f.tag = t :=
  mem_of_searchByTag h

lemma StructType.Ascends.fieldByTag?_tag (h : struct.Ascends) {f : Field}
    (hf : f ∈ struct.fields) : struct.fieldByTag? f.tag = some f :=
  searchByTag_tagOf h le_rfl hf

/-- No two fields of a struct share a tag. -/
lemma StructType.Ascends.eq_of_tag_eq (h : struct.Ascends) {f g : Field} (hf : f ∈ struct.fields)
    (hg : g ∈ struct.fields) (htag : f.tag = g.tag) : f = g :=
  List.inj_on_of_nodup_map h.nodup_tags hf hg htag

lemma StructType.Ascends.fieldByTag?_eq_none_iff (h : struct.Ascends) {t : Tag} :
    struct.fieldByTag? t = none ↔ ∀ f ∈ struct.fields, f.tag ≠ t := by
  constructor
  · rintro hnone f hf rfl
    rw [h.fieldByTag?_tag hf] at hnone
    cases hnone
  · intro hall
    refine Option.eq_none_iff_forall_ne_some.mpr fun f hf => ?_
    obtain ⟨hmem, htag⟩ := mem_of_fieldByTag? hf
    exact hall f hmem htag

/-- Halving the fields finds what looking through them would. -/
lemma StructType.Ascends.find?_tag (h : struct.Ascends) {t : Tag} :
    struct.fields.find? (·.tag = t) = struct.fieldByTag? t := by
  cases ht : struct.fieldByTag? t with
  | none => simpa using h.fieldByTag?_eq_none_iff.mp ht
  | some f => exact (find?_eq_some_iff_keyOf _ h.nodup_tags).mpr (mem_of_fieldByTag? ht)

lemma UnionType.mem_of_variantByTag? {t : Tag} {v : Variant}
    (h : union.variantByTag? t = some v) : v ∈ union.variants ∧ v.tag = t :=
  mem_of_searchByTag h

lemma UnionType.Ascends.variantByTag?_tag (h : union.Ascends) {v : Variant}
    (hv : v ∈ union.variants) : union.variantByTag? v.tag = some v :=
  searchByTag_tagOf h le_rfl hv

end Schema

end SchemaRpc
