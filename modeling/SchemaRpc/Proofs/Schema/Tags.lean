/-
# Tags are given once

Giving tags keeps a list of those that are taken, and refuses a tag on the list.  So the members
of one owner get different tags, and putting them in order leaves strictly ascending ones.
-/
import Mathlib.Data.List.Nodup
import Mathlib.Data.List.Perm.Subperm
import Mathlib.Order.Fin.Basic
import SchemaRpc.Proofs.Outcome
import SchemaRpc.Schema.Resolve

namespace SchemaRpc

namespace Schema

/-! ## Putting members in order -/

section

variable {α : Type} (tagOf : α → Tag)

lemma insertByTag_perm (a : α) (l : List α) : (insertByTag tagOf a l).Perm (a :: l) := by
  induction l with
  | nil => exact .refl _
  | cons b l ih =>
    rw [insertByTag]
    split
    · exact .refl _
    · exact (ih.cons b).trans (.swap a b l)

lemma insertByTag_pairwise {a : α} {l : List α} (hl : l.Pairwise (tagOf · < tagOf ·))
    (ha : ∀ b ∈ l, tagOf b ≠ tagOf a) :
    (insertByTag tagOf a l).Pairwise (tagOf · < tagOf ·) := by
  induction l with
  | nil => exact List.pairwise_singleton _ a
  | cons b l ih =>
    have hb := List.pairwise_cons.mp hl
    rw [insertByTag]
    split
    · rename_i hlt
      refine List.pairwise_cons.mpr ⟨fun c hc => ?_, hl⟩
      rcases List.mem_cons.mp hc with rfl | hc
      · exact hlt
      · exact hlt.trans (hb.1 c hc)
    · rename_i hge
      have hlt : tagOf b < tagOf a :=
        lt_of_le_of_ne (not_lt.mp hge) (ha b List.mem_cons_self)
      refine List.pairwise_cons.mpr ⟨fun c hc => ?_,
        ih hb.2 fun c hc => ha c (List.mem_cons_of_mem b hc)⟩
      rcases List.mem_cons.mp ((insertByTag_perm tagOf a l).mem_iff.mp hc) with rfl | hc
      · exact hlt
      · exact hb.1 c hc

lemma foldl_insertByTag_perm (l sorted : List α) :
    (l.foldl (fun sorted a => insertByTag tagOf a sorted) sorted).Perm (l ++ sorted) := by
  induction l generalizing sorted with
  | nil => exact .refl _
  | cons a l ih =>
    exact (ih _).trans (((insertByTag_perm tagOf a sorted).append_left l).trans
      List.perm_middle)

lemma foldl_insertByTag_pairwise {l sorted : List α}
    (hsorted : sorted.Pairwise (tagOf · < tagOf ·)) (hl : ((l ++ sorted).map tagOf).Nodup) :
    (l.foldl (fun sorted a => insertByTag tagOf a sorted) sorted).Pairwise
      (tagOf · < tagOf ·) := by
  induction l generalizing sorted with
  | nil => exact hsorted
  | cons a l ih =>
    -- the member to insert next differs from those that are sorted and those that follow
    rw [List.cons_append, List.map_cons, List.nodup_cons] at hl
    refine ih (insertByTag_pairwise tagOf hsorted fun b hb heq => ?_) ?_
    · exact hl.1 (heq ▸ List.mem_map_of_mem (List.mem_append_right l hb))
    · have hperm : (l ++ insertByTag tagOf a sorted).Perm (a :: (l ++ sorted)) :=
        ((insertByTag_perm tagOf a sorted).append_left l).trans List.perm_middle
      exact (hperm.map tagOf).nodup_iff.mpr (List.nodup_cons.mpr hl)

/-- Members are put in order without loss. -/
theorem sortByTag_perm (l : List α) : (sortByTag tagOf l).Perm l := by
  have hperm := foldl_insertByTag_perm tagOf l []
  rwa [List.append_nil] at hperm

/-- Members with different tags are put in strictly ascending order. -/
theorem sortByTag_pairwise {l : List α} (hl : (l.map tagOf).Nodup) :
    (sortByTag tagOf l).Pairwise (tagOf · < tagOf ·) :=
  foldl_insertByTag_pairwise tagOf List.Pairwise.nil (by simpa using hl)

end

/-! ## Giving tags -/

section

variable {reserved : List Tag} {fuel n : Nat}

lemma le_firstFree : n ≤ firstFree reserved fuel n := by
  induction fuel generalizing n with
  | zero => exact Nat.le_refl n
  | succ fuel ih =>
    rw [firstFree]
    split
    · exact (Nat.le_succ n).trans ih
    · exact Nat.le_refl n

/-- A search that ends at a reserved number has met reserved numbers only. -/
lemma mem_reserved_of_firstFree (h : firstFree reserved fuel n ∈ reserved.map (·.val)) {k : Nat}
    (hk : k ≤ fuel) : n + k ∈ reserved.map (·.val) := by
  induction fuel generalizing n k with
  | zero =>
    obtain rfl := Nat.le_zero.mp hk
    exact h
  | succ fuel ih =>
    rw [firstFree] at h
    split at h
    · rename_i hn
      cases k with
      | zero => simpa using hn
      | succ k =>
        rw [Nat.add_comm k 1, ← Nat.add_assoc]
        exact ih h (Nat.le_of_succ_le_succ hk)
    · rename_i hn
      exact absurd (by simpa using h) hn

/-- As many numbers as there are reserved ones, and one more, are not all reserved. -/
lemma firstFree_not_mem_reserved (hfuel : reserved.length ≤ fuel) :
    firstFree reserved fuel n ∉ reserved.map (·.val) := by
  intro h
  have hnodup : ((List.range (fuel + 1)).map (n + ·)).Nodup :=
    List.nodup_range.map fun _ _ => Nat.add_left_cancel
  have hsubset : (List.range (fuel + 1)).map (n + ·) ⊆ reserved.map (·.val) := by
    intro i hi
    obtain ⟨k, hk, rfl⟩ := List.mem_map.mp hi
    exact mem_reserved_of_firstFree h (Nat.le_of_lt_succ (List.mem_range.mp hk))
  have hlen := (List.subperm_of_subset hnodup hsubset).length_le
  simp only [List.length_map, List.length_range] at hlen
  omega

end

namespace Tagging

/-- The tags that have been given. -/
def taken (t : Tagging) : List Tag := t.given.map (·.1)

variable {t t' : Tagging} {member : String} {tag : Tag}

/-- A tag is given to a member, and it is a tag that the member may have. -/
structure Gives (t : Tagging) (explicit : Option Tag) (tag : Tag) (t' : Tagging) : Prop where
  fresh : tag ∉ t.taken
  taken : t'.taken = tag :: t.taken
  reserved : t'.reserved = t.reserved
  ne_zero : tag ≠ .zero
  free : tag ∉ t.reserved
  explicit : ∀ wanted ∈ explicit, tag = wanted

lemma give_eq_ok {tag' : Tag} (h : t.give member tag = .ok (tag', t')) :
    tag' = tag ∧ tag ∉ t.taken ∧ t'.taken = tag :: t.taken ∧ t'.reserved = t.reserved := by
  unfold give at h
  split at h
  · cases h
  · rename_i hnone
    cases h
    refine ⟨rfl, ?_, rfl, rfl⟩
    rw [Tagging.taken, List.mem_map]
    rintro ⟨⟨_, holder⟩, hmem, rfl⟩
    rw [List.lookup_eq_none_iff] at hnone
    simpa using hnone _ hmem

lemma assign_eq_ok {explicit : Option Tag} (h : t.assign member explicit = .ok (tag, t')) :
    t.Gives explicit tag t' := by
  unfold assign at h
  split at h
  · rename_i wanted
    split at h
    · cases h
    · rename_i hzero
      split at h
      · cases h
      · rename_i hreserved
        obtain ⟨rfl, hfresh, htaken, hsame⟩ := give_eq_ok h
        exact ⟨hfresh, htaken, hsame, hzero, by simpa using hreserved, by simp⟩
  · split at h
    · rename_i hlt
      obtain ⟨rfl, hfresh, htaken, hsame⟩ := give_eq_ok h
      refine ⟨hfresh, htaken, hsame, fun hzero => ?_, fun hmem => ?_, by simp⟩
      · -- the next number lies above the last one
        have hval : t.next = 0 := congrArg Fin.val hzero
        have hle : t.last + 1 ≤ t.next := le_firstFree
        omega
      · exact firstFree_not_mem_reserved le_rfl (List.mem_map_of_mem hmem)
    · cases h

/-- Tags that can be given from here on: all different, not taken, not zero, not reserved. -/
structure Admits (t : Tagging) (tags : List Tag) : Prop where
  nodup : tags.Nodup
  fresh : ∀ tag ∈ tags, tag ∉ t.taken
  ne_zero : ∀ tag ∈ tags, tag ≠ .zero
  free : ∀ tag ∈ tags, tag ∉ t.reserved

lemma Gives.admits {explicit : Option Tag} (h : t.Gives explicit tag t') {tags : List Tag}
    (htags : t'.Admits tags) : t.Admits (tag :: tags) := by
  have hfresh := htags.fresh
  rw [h.taken] at hfresh
  refine ⟨List.nodup_cons.mpr ⟨fun hmem => hfresh tag hmem List.mem_cons_self, htags.nodup⟩,
    ?_, ?_, ?_⟩
  · exact List.forall_mem_cons.mpr
      ⟨h.fresh, fun other hother hmem => hfresh other hother (List.mem_cons_of_mem tag hmem)⟩
  · exact List.forall_mem_cons.mpr ⟨h.ne_zero, htags.ne_zero⟩
  · exact List.forall_mem_cons.mpr ⟨h.free, h.reserved ▸ htags.free⟩

lemma assignAll_cons_eq_ok {explicit : Option Tag} {more : List (String × Option Tag)}
    {tags : List Tag} : t.assignAll ((member, explicit) :: more) = .ok tags ↔
      ∃ tag t' rest, t.assign member explicit = .ok (tag, t') ∧ t'.assignAll more = .ok rest ∧
        tags = tag :: rest := by
  rw [assignAll]
  rcases t.assign member explicit with fault | ⟨tag, t'⟩
  · simp
  · dsimp only
    rw [Outcome.map_eq_ok_iff]
    constructor
    · rintro ⟨rest, hrest, rfl⟩
      exact ⟨tag, t', rest, rfl, hrest, rfl⟩
    · rintro ⟨_, _, rest, ⟨⟩, hrest, rfl⟩
      exact ⟨rest, hrest, rfl⟩

/-- Tags that are given one after the other can be given. -/
theorem assignAll_admits {members : List (String × Option Tag)} {tags : List Tag}
    (h : t.assignAll members = .ok tags) : t.Admits tags := by
  induction members generalizing t tags with
  | nil =>
    cases h
    constructor <;> simp
  | cons m more ih =>
    obtain ⟨tag, t', rest, htag, hrest, rfl⟩ := assignAll_cons_eq_ok.mp h
    exact (assign_eq_ok htag).admits (ih hrest)

end Tagging

lemma nextTag_eq_ok_iff {owner member : String} {t t' : Tagging} {explicit : Option Tag}
    {tag : Tag} :
    nextTag owner t member explicit = .ok (tag, t') ↔ t.assign member explicit = .ok (tag, t') :=
  Outcome.mapError_eq_ok_iff

end Schema

end SchemaRpc
