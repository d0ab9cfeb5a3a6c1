/-
# Tags are the intended ones

The tag that a member should have is its explicit one, or else the least number above the tag of
the member before it that is not reserved.  Tags of all members are given exactly if that is
possible: no explicit tag is zero or reserved, none lies beyond the last tag, and no two are the
same.  Otherwise the first member that stands in the way is named, with what is wrong.

* `isLeast_firstFree`: the search for a number that is not reserved finds the least one.
* `Tagging.assignAll_intended`: the tags that are given, and the member that is refused.
* `Numbered.map_tagOf`: resolution gives the members of an owner these tags.
-/
import Mathlib.Order.Bounds.Basic
import SchemaRpc.Proofs.Schema.Allotment
import SchemaRpc.Proofs.Schema.Members

namespace SchemaRpc

namespace Schema

/-! ## The search -/

section

variable {reserved : List Tag} {fuel n : Nat}

/-- What the search passes over is reserved. -/
lemma mem_reserved_of_lt_firstFree {k : Nat} (hle : n ≤ k) (hlt : k < firstFree reserved fuel n) :
    k ∈ reserved.map (·.val) := by
  induction fuel generalizing n with
  | zero => exact absurd hlt (Nat.not_lt.mpr hle)
  | succ fuel ih =>
    rw [firstFree] at hlt
    split at hlt
    · rename_i hn
      rcases Nat.eq_or_lt_of_le hle with rfl | hle
      · simpa using hn
      · exact ih hle hlt
    · exact absurd hlt (Nat.not_lt.mpr hle)

/-- **The search ends.**  With as many steps as there are reserved tags, or more, the search ends
at the least number that is not reserved, and not for want of steps. -/
theorem isLeast_firstFree (hfuel : reserved.length ≤ fuel) (last : Nat) :
    IsLeast {k | last < k ∧ k ∉ reserved.map (·.val)} (firstFree reserved fuel (last + 1)) := by
  refine ⟨⟨le_firstFree, firstFree_not_mem_reserved hfuel⟩, ?_⟩
  rintro k ⟨hlast, hk⟩
  by_contra hlt
  exact hk (mem_reserved_of_lt_firstFree hlast (Nat.not_le.mp hlt))

end

/-! ## The tags that members should have -/

/-- A member cannot have its tag, whatever the others have. -/
inductive TagRefused (owner : String) (reserved : List Tag) : Entry Tag Nat → ResolveError → Prop
    where
  | zero {name : String} {n : Nat} :
    TagRefused owner reserved ⟨name, some .zero, n⟩ (.invalidTag owner name 0)
  | reserved {name : String} {tag : Tag} {n : Nat} (hzero : tag ≠ .zero) (h : tag ∈ reserved) :
    TagRefused owner reserved ⟨name, some tag, n⟩ (.tagCollision owner name tag .reserved)
  | beyond {name : String} {n : Nat} (h : 65535 < n) :
    TagRefused owner reserved ⟨name, none, n⟩ (.invalidTag owner name n)

/-- The tags of the members of an owner: explicit ones, and else the least one above the tag
before, which is zero before the first member, that is not reserved. -/
def tagScheme (owner : String) (reserved : List Tag) : Scheme Tag Nat where
  Intends before explicit n :=
    match explicit with
    | some tag => n = tag.val
    | none => IsLeast {k | before.getD 0 < k ∧ k ∉ reserved.map (·.val)} n
  Refuses := TagRefused owner reserved
  taken e holder := .tagCollision owner e.name (.ofNat e.number) (.member holder)

section

variable {owner : String} {reserved : List Tag} {entries : List (Entry Tag Nat)}

variable (owner reserved) in
lemma existsUnique_intends (before : Option Nat) (explicit : Option Tag) :
    ∃! n, (tagScheme owner reserved).Intends before explicit n := by
  cases explicit with
  | some tag => exact ⟨tag.val, rfl, fun _ h => h⟩
  | none =>
    have hleast := isLeast_firstFree (le_refl reserved.length) (before.getD 0)
    exact ⟨_, hleast, fun _ h => IsLeast.unique h hleast⟩

/-- Explicit tags are those that members should have. -/
lemma number_eq_of_explicit {before : Option Nat}
    (h : (tagScheme owner reserved).Intended before entries) :
    ∀ e ∈ entries, ∀ tag ∈ e.explicit, e.number = tag.val := by
  induction h with
  | nil => exact List.forall_mem_nil _
  | @cons _ e _ h _ ih =>
    refine List.forall_mem_cons.mpr ⟨fun tag htag => ?_, ih⟩
    rw [Option.mem_def.mp htag] at h
    exact h

/-- Which members can all have the tags that they should have. -/
lemma faultless_tagScheme_iff {before : Option Nat}
    (hintended : (tagScheme owner reserved).Intended before entries) :
    (tagScheme owner reserved).Faultless entries ↔
      (∀ e ∈ entries, ∀ tag ∈ e.explicit, tag ≠ .zero ∧ tag ∉ reserved) ∧
        (∀ e ∈ entries, e.number ≤ 65535) ∧ (entries.map (·.number)).Nodup := by
  have hexplicit := number_eq_of_explicit hintended
  constructor
  · rintro ⟨hadmitted, hnodup⟩
    have hfree : ∀ e ∈ entries, ∀ tag ∈ e.explicit, tag ≠ .zero ∧ tag ∉ reserved := by
      rintro ⟨name, explicit, n⟩ he tag htag
      obtain rfl : explicit = some tag := htag
      have hzero : tag ≠ .zero := by
        rintro rfl
        exact hadmitted _ he _ .zero
      exact ⟨hzero, fun hmem => hadmitted _ he _ (.reserved hzero hmem)⟩
    refine ⟨hfree, ?_, hnodup⟩
    rintro ⟨name, explicit, n⟩ he
    cases explicit with
    | some tag =>
      have hn : n = tag.val := hexplicit _ he tag rfl
      exact hn ▸ Nat.le_of_lt_succ tag.isLt
    | none => exact Nat.not_lt.mp fun hlt => hadmitted _ he _ (.beyond hlt)
  · rintro ⟨hfree, hbound, hnodup⟩
    refine ⟨fun e he error herror => ?_, hnodup⟩
    cases herror with
    | zero => exact (hfree _ he .zero rfl).1 rfl
    | reserved _ hmem => exact (hfree _ he _ rfl).2 hmem
    | beyond hlt => exact absurd hlt (Nat.not_lt.mpr (hbound _ he))

end

/-! ## The tags that are given -/

/-- What has been given: the tags of some members, the last one first. -/
structure Tagging.Holds (reserved : List Tag) (done : List (Entry Tag Nat)) (t : Tagging) :
    Prop where
  reserves : t.reserved = reserved
  given : Keeps Fin.val t.given done
  last : t.last = (lastNumber? done).getD 0
  /-- No member could have been refused its tag. -/
  usable : ∀ e ∈ done, ∃ tag : Tag, e.number = tag.val ∧ tag ≠ .zero ∧ tag ∉ reserved

namespace Tagging

variable {owner : String} {reserved : List Tag} {done : List (Entry Tag Nat)} {t : Tagging}

lemma holds_start (reserved : List Tag) : Holds reserved [] (start reserved) :=
  ⟨rfl, rfl, rfl, List.forall_mem_nil _⟩

/-- A tag that nobody has is given. -/
lemma Holds.give_of_fresh (h : t.Holds reserved done) (e : Entry Tag Nat) {tag : Tag}
    (hnumber : e.number = tag.val) (hzero : tag ≠ .zero) (hfree : tag ∉ reserved)
    (hfresh : ∀ e' ∈ done, e'.number ≠ tag.val) :
    ∃ t', t.give e.name tag = .ok (tag, t') ∧ t'.Holds reserved (done ++ [e]) := by
  refine ⟨⟨t.reserved, (tag, e.name) :: t.given, tag.val⟩, ?_, h.reserves, ?_, ?_, ?_⟩
  · rw [give, (h.given.lookup_eq_none_iff Fin.val_injective).mpr hfresh]
  · exact h.given.append hnumber.symm
  · rw [lastNumber?_append_singleton, hnumber]
    rfl
  · rw [List.forall_mem_append, List.forall_mem_singleton]
    exact ⟨h.usable, tag, hnumber, hzero, hfree⟩

/-- A tag that a member has is not given again. -/
lemma Holds.give_of_taken (h : t.Holds reserved done) (hnodup : (done.map (·.number)).Nodup)
    {holder : Entry Tag Nat} (hholder : holder ∈ done) {tag : Tag}
    (hnumber : holder.number = tag.val) (member : String) :
    t.give member tag = .error (.taken tag (.member holder.name)) := by
  rw [give, h.given.lookup_eq_some Fin.val_injective hnodup hholder hnumber.symm]

lemma Holds.isLeast_next (h : t.Holds reserved done) :
    IsLeast {k | (lastNumber? done).getD 0 < k ∧ k ∉ reserved.map (·.val)} t.next := by
  rw [next, h.reserves, h.last]
  exact isLeast_firstFree le_rfl _

/-- An explicit tag that is not refused is to be given. -/
lemma Holds.assign_explicit (h : t.Holds reserved done) (member : String) {tag : Tag}
    (hzero : tag ≠ .zero) (hfree : tag ∉ reserved) :
    t.assign member (some tag) = t.give member tag := by
  rw [← h.reserves] at hfree
  rw [assign, if_neg hzero, if_neg (by simpa using hfree)]

/-- Without an explicit tag, the least one above the last that is not reserved is to be given. -/
lemma assign_implicit (member : String) {tag : Tag} (h : t.next = tag.val) :
    t.assign member none = t.give member tag := by
  have hlt : t.next < 65536 := h ▸ tag.isLt
  rw [assign, dif_pos hlt]
  congr 1
  exact Fin.ext h

/-- Tags are given as they should be. -/
lemma allots_nextTag (owner : String) (reserved : List Tag) :
    Allots (tagScheme owner reserved) id (fun tag e => tag.val = e.number) (Holds reserved)
      fun t (m : String × Option Tag) => nextTag owner t m.1 m.2 := by
  refine ⟨?_, ?_⟩
  · rintro done t ⟨_, _⟩ ⟨name, explicit, n⟩ ht ⟨⟩ hintends hfaultless
    obtain ⟨hadmitted, hfresh⟩ := hfaultless.last
    -- what is to be given, be it explicit or not, is a tag that nobody has
    have hgive (tag : Tag) (hn : n = tag.val) (hzero : tag ≠ .zero) (hfree : tag ∉ reserved)
        (hassign : t.assign name explicit = t.give name tag) :
        ∃ a s', nextTag owner t name explicit = .ok (a, s') ∧ a.val = n ∧
          s'.Holds reserved (done ++ [⟨name, explicit, n⟩]) := by
      obtain ⟨t', hgives, ht'⟩ :=
        ht.give_of_fresh ⟨name, explicit, n⟩ hn hzero hfree (hn ▸ hfresh)
      exact ⟨tag, t', nextTag_eq_ok_iff.mpr (hassign.trans hgives), hn.symm, ht'⟩
    cases explicit with
    | some tag =>
      have hzero : tag ≠ .zero := by
        rintro rfl
        exact hadmitted _ .zero
      have hfree : tag ∉ reserved := fun hmem => hadmitted _ (.reserved hzero hmem)
      exact hgive tag hintends hzero hfree (ht.assign_explicit name hzero hfree)
    | none =>
      have hn : n = t.next := IsLeast.unique hintends ht.isLeast_next
      have hlt : n < 65536 := by
        by_contra hlt
        exact hadmitted _ (.beyond (by omega))
      obtain ⟨hlast, hfree⟩ := hintends.1
      refine hgive ⟨n, hlt⟩ rfl (fun hzero => ?_) (fun hmem => ?_)
        (assign_implicit name hn.symm)
      · have hpos : 0 < n := Nat.zero_lt_of_lt hlast
        exact hpos.ne' (congrArg Fin.val hzero)
      · exact hfree (List.mem_map_of_mem hmem)
  · rintro done t ⟨_, _⟩ ⟨name, explicit, n⟩ error ht ⟨⟩ hintends hfaultless hoffends
    -- an error of the assignment becomes one about the owner
    have hfails (fault : TagFault) (h : t.assign name explicit = .error fault) :
        nextTag owner t name explicit = .error (fault.toError owner name) := by
      rw [nextTag, h]
      rfl
    cases hoffends with
    | refused h =>
      cases h with
      | zero => exact hfails (.invalid 0) rfl
      | reserved hzero hmem =>
        refine hfails (.taken _ .reserved) ?_
        rw [assign, if_neg hzero, if_pos (by simpa [ht.reserves] using hmem)]
      | beyond hlt =>
        have hn : n = t.next := IsLeast.unique hintends ht.isLeast_next
        refine hfails (.invalid n) ?_
        rw [assign, dif_neg (by omega), hn]
    | @taken holder hholder hnumber =>
      obtain ⟨tag, hval, hzero, hfree⟩ := ht.usable holder hholder
      obtain rfl : n = tag.val := hnumber.symm.trans hval
      have hgive := ht.give_of_taken hfaultless.nodup hholder hval name
      have htag : Tag.ofNat tag.val = tag := Fin.ext (Nat.mod_eq_of_lt tag.isLt)
      have hassign : t.assign name explicit = t.give name tag := by
        cases explicit with
        | some wanted =>
          obtain rfl : tag = wanted := Fin.ext hintends
          exact ht.assign_explicit name hzero hfree
        | none => exact assign_implicit name (IsLeast.unique ht.isLeast_next hintends)
      refine (hfails _ (hassign.trans hgive)).trans ?_
      show Except.error (ResolveError.tagCollision owner name tag _) =
        .error (.tagCollision owner name (.ofNat tag.val) _)
      rw [htag]

/-- Assigning tags in order is giving them one by one, errors being about the owner. -/
lemma giveAll_nextTag (owner : String) (t : Tagging) (members : List (String × Option Tag)) :
    giveAll (fun t m => nextTag owner t m.1 m.2) t members =
      (t.assignAll members).mapError fun e => e.2.toError owner e.1 := by
  induction members generalizing t with
  | nil => rfl
  | cons m members ih =>
    rw [giveAll, assignAll, nextTag]
    rcases t.assign m.1 m.2 with fault | ⟨tag, t'⟩
    · rfl
    · show (giveAll _ t' members >>= fun tags => pure (tag :: tags)) =
        ((t'.assignAll members).map (tag :: ·)).mapError _
      rw [ih]
      cases t'.assignAll members <;> rfl

/-- **Tags are the intended ones.**  Every sequence of members has one list of intended tags.
Tags are given exactly if no explicit one is zero or reserved, none of the intended ones lies
beyond the last tag, and all differ; then they are the intended ones.  Otherwise the error is that
of the first member that stands in the way: its tag is zero, reserved, beyond the last one, or
that of a member before it.  The search for a tag that is not reserved ends at the least one,
however many steps it is allowed beyond the number of reserved tags. -/
theorem assignAll_intended (owner : String) (reserved : List Tag)
    (members : List (String × Option Tag)) :
    ∃ entries : List (Entry Tag Nat),
      (∀ others, others.map Entry.declared = members ∧
        (tagScheme owner reserved).Intended none others ↔ others = entries) ∧
      (∀ tags, (start reserved).assignAll members = .ok tags ↔
        ((∀ e ∈ entries, ∀ tag ∈ e.explicit, tag ≠ .zero ∧ tag ∉ reserved) ∧
          (∀ e ∈ entries, e.number ≤ 65535) ∧ (entries.map (·.number)).Nodup) ∧
            tags.map (·.val) = entries.map (·.number)) ∧
      (∀ error, ((start reserved).assignAll members).mapError (fun e => e.2.toError owner e.1) =
        .error error ↔ (tagScheme owner reserved).FirstOffence entries error) ∧
      ∀ last fuel, reserved.length ≤ fuel →
        IsLeast {k | last < k ∧ k ∉ reserved.map (·.val)} (firstFree reserved fuel (last + 1)) := by
  obtain ⟨entries, hentries⟩ := Scheme.exists_intended
    (existsUnique_intends owner reserved) none members
  obtain ⟨hdeclared, hintended⟩ := (hentries entries).mpr rfl
  have hallots := allots_nextTag owner reserved
  have hmembers : members.map id = entries.map Entry.declared := by rw [List.map_id, hdeclared]
  refine ⟨entries, hentries, fun tags => ?_, fun error => ?_, fun last fuel hfuel => ?_⟩
  · have hunique (tag tag' : Tag) (e : Entry Tag Nat) (h : tag.val = e.number)
        (h' : tag'.val = e.number) : tag = tag' := Fin.ext (h.trans h'.symm)
    have hok := hallots.eq_ok_iff (holds_start reserved) hmembers hintended hunique tags
    rw [giveAll_nextTag, Outcome.mapError_eq_ok_iff, faultless_tagScheme_iff hintended] at hok
    rw [hok, ← List.forall₂_eq_eq_eq, List.forall₂_map_left_iff, List.forall₂_map_right_iff]
  · rw [← giveAll_nextTag]
    exact hallots.eq_error_iff (holds_start reserved) hmembers hintended
  · exact isLeast_firstFree hfuel last

/-- A member without a tag gets one that a member before it has chosen. -/
example : (start [.ofNat 2]).assignAll
    [("sender", some (.ofNat 3)), ("weight", some (.ofNat 1)), ("size", none)] =
      .error ("size", .taken (.ofNat 3) (.member "sender")) := by decide

end Tagging

/-! ## Resolution -/

/-- Whoever resolves the members of an owner one by one gives them the tags of the assignment, or
fails as it does, if the members can be resolved apart from that. -/
theorem Numbered.map_tagOf {α β : Type} {owner : String} {entry : β → String × Option Tag}
    {tagOf : α → Tag} {resolveOne : β → Tag → Resolved α}
    {pass : Tagging → List β → Resolved (List α)}
    (hpass : Numbered owner entry tagOf resolveOne pass) (t : Tagging) {ds : List β}
    (hone : ∀ d ∈ ds, ∀ tag, ∃ a, resolveOne d tag = .ok a) :
    (pass t ds).map (·.map tagOf) =
      (t.assignAll (ds.map entry)).mapError fun e => e.2.toError owner e.1 := by
  induction ds generalizing t with
  | nil =>
    rw [hpass.nil]
    rfl
  | cons d ds ih =>
    rw [List.forall_mem_cons] at hone
    rw [hpass.cons, List.map_cons, Tagging.assignAll, nextTag]
    rcases t.assign (entry d).1 (entry d).2 with fault | ⟨tag, t'⟩
    · rfl
    · obtain ⟨a, ha⟩ := hone.1 tag
      obtain rfl := hpass.tag d tag a ha
      calc (resolveOne d (tagOf a) >>= fun a => pass t' ds >>= fun more => pure (a :: more)).map
            (·.map tagOf)
          = ((pass t' ds).map (·.map tagOf)).map (tagOf a :: ·) := by
            rw [ha, Outcome.ok_bind]
            cases pass t' ds <;> rfl
        _ = ((t'.assignAll (ds.map entry)).mapError fun e => e.2.toError owner e.1).map
            (tagOf a :: ·) := by rw [ih t' hone.2]
        _ = ((t'.assignAll (ds.map entry)).map (tagOf a :: ·)).mapError
            fun e => e.2.toError owner e.1 := by
            cases t'.assignAll (ds.map entry) <;> rfl

end Schema

end SchemaRpc
