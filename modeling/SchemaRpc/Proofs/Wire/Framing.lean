/-
# Whole members

Bytes fall into whole members in one way only, since a member says where it ends: a header of a
kind, and behind it what is passed over for that kind.  So whoever takes a member off the front
of a range, whatever else it makes of it, stands at the same place afterwards.

* `IsMember.unique`: of two members with which the same bytes begin, neither is longer.
* `IsSequence.of_append`: where one sequence of members ends, another one goes on.
* `IsCut.unique`: there is one way to take a member out that has a tag of its own.
-/
import Mathlib.Data.List.Nodup
import SchemaRpc.Proofs.Wire.Skipping

namespace SchemaRpc

namespace Wire

/-- Of bytes with the same beginning, an operation takes the same and makes the same of them. -/
lemma Parses.unique {ε α : Type} {op : EStateM ε Reader α} {P : Bytes → α → Prop}
    (hop : Parses op P) {bytes bytes' more more' : Bytes} {a b : α} (h : P bytes a)
    (h' : P bytes' b) (heq : bytes ++ more = bytes' ++ more') :
    bytes = bytes' ∧ a = b ∧ more = more' := by
  have hrun := hop.run h 0 more
  rw [heq, hop.run h' 0 more', EStateM.Result.ok.injEq, Reader.mk.injEq] at hrun
  obtain ⟨rfl, -, rfl⟩ := hrun
  exact ⟨List.append_cancel_right heq, rfl, rfl⟩

/-! ## One member -/

lemma Skips.length_pos {depth : Nat} {kind : Kind} {bytes : Bytes} (h : Skips depth kind bytes) :
    0 < bytes.length := by
  cases h with
  | int hw =>
    by_contra hzero
    rw [Nat.eq_zero_of_not_pos hzero] at hw
    cases kind <;> cases hw
  | block hb => exact Nat.zero_lt_of_lt hb.length_lt
  | repeated hw h =>
    rw [List.length_append, hw]
    exact Nat.lt_add_right _ (by decide)

mutual

/-- What may be passed over within a depth may be passed over within a greater one. -/
lemma Skips.mono {depth depth' : Nat} (hle : depth ≤ depth') {kind : Kind} {bytes : Bytes} :
    Skips depth kind bytes → Skips depth' kind bytes
  | .int h => .int h
  | .block h => .block h
  | .repeated hw h => by
    obtain ⟨n, rfl⟩ := Nat.exists_eq_add_of_lt (Nat.lt_of_succ_le hle)
    exact .repeated hw (h.mono (Nat.le_add_right _ n))

lemma SkipsItems.mono {depth depth' : Nat} (hle : depth ≤ depth') {count : Nat} {bytes : Bytes} :
    SkipsItems depth count bytes → SkipsItems depth' count bytes
  | .nil => .nil
  | .cons hh hb h => .cons hh (hb.mono hle) (h.mono hle)

end

/-- A whole member with its tag, arrays nesting at most `depth` deep. -/
inductive IsMember (depth : Nat) : Tag → Bytes → Prop where
  | mk {kind : Kind} {tag : Tag} {head body : Bytes} (hh : IsHeader head ⟨kind, tag⟩)
    (hb : Skips depth kind body) : IsMember depth tag (head ++ body)

namespace IsMember

variable {depth depth' : Nat} {tag tag' : Tag} {member member' more more' : Bytes}

lemma ne_nil (h : IsMember depth tag member) : member ≠ [] := by
  cases h with
  | mk hh hb => simp [hh.ne_nil]

lemma mono (h : IsMember depth tag member) (hle : depth ≤ depth') :
    IsMember depth' tag member := by
  cases h with
  | mk hh hb => exact .mk hh (hb.mono hle)

/-- **Members are self-delimiting.**  Two members with which the same bytes begin are one. -/
lemma unique (h : IsMember depth tag member) (h' : IsMember depth' tag' member')
    (heq : member ++ more = member' ++ more') : member = member' ∧ tag = tag' ∧ more = more' := by
  cases h with
  | @mk kind _ head body hh hb =>
    cases h' with
    | @mk kind' _ head' body' hh' hb' =>
      rw [List.append_assoc, List.append_assoc] at heq
      obtain ⟨rfl, hheader, heq⟩ := Reader.parses_readHeader.unique hh hh' heq
      cases hheader
      -- behind the same header, both bodies are what is passed over for its kind
      have hb₁ := hb.mono (Nat.le_max_left depth depth')
      have hb₂ := hb'.mono (Nat.le_max_right depth depth')
      obtain ⟨rfl, -, rfl⟩ := (Reader.parses_skip _ kind).unique (a := ()) (b := ()) hb₁ hb₂ heq
      exact ⟨rfl, rfl, rfl⟩

end IsMember

/-- A member is what a header and then passing over its kind take off. -/
lemma isMember_iff {depth : Nat} {tag : Tag} {member : Bytes} : IsMember depth tag member ↔
    ∃ kind r, Reader.readHeader (.ofBytes member) = .ok ⟨kind, tag⟩ r ∧
      Reader.skip depth kind r = .ok () ⟨member.length, []⟩ := by
  constructor
  · rintro @⟨kind, _, head, body, hh, hb⟩
    refine ⟨kind, ⟨head.length, body⟩, ?_, ?_⟩
    · exact (Reader.parses_readHeader ..).mpr ⟨head, hh, rfl, by simp [Reader.ofBytes]⟩
    · exact (Reader.parses_skip ..).mpr ⟨body, hb, by simp, by simp⟩
  · rintro ⟨kind, r, hheader, hskip⟩
    obtain ⟨head, hh, hpast⟩ := (Reader.parses_readHeader ..).mp hheader
    obtain ⟨body, hb, hpast'⟩ := (Reader.parses_skip ..).mp hskip
    have hmember : member = head ++ (body ++ []) := by rw [← hpast'.rest_eq, ← hpast.rest_eq]; rfl
    rw [hmember, List.append_nil]
    exact .mk hh hb

/-! ## Members in a row -/

/-- Bytes that are whole members one after the other, with their tags. -/
inductive IsSequence (depth : Nat) : List Tag → Bytes → Prop where
  | nil : IsSequence depth [] []
  | cons {tag : Tag} {tags : List Tag} {member more : Bytes} (hm : IsMember depth tag member)
    (h : IsSequence depth tags more) : IsSequence depth (tag :: tags) (member ++ more)

lemma IsMember.isSequence {depth : Nat} {tag : Tag} {member : Bytes}
    (h : IsMember depth tag member) : IsSequence depth [tag] member :=
  List.append_nil member ▸ .cons h .nil

namespace IsSequence

variable {depth depth' : Nat} {tag : Tag} {tags tags' : List Tag} {bytes bytes' : Bytes}

lemma cons_header {kind : Kind} {head body more : Bytes} (hh : IsHeader head ⟨kind, tag⟩)
    (hb : Skips depth kind body) (h : IsSequence depth tags more) :
    IsSequence depth (tag :: tags) (head ++ (body ++ more)) :=
  List.append_assoc head body more ▸ .cons (.mk hh hb) h

lemma mono (h : IsSequence depth tags bytes) (hle : depth ≤ depth') :
    IsSequence depth' tags bytes := by
  induction h with
  | nil => exact .nil
  | cons hm h ih => exact .cons (hm.mono hle) ih

lemma append (h : IsSequence depth tags bytes) (h' : IsSequence depth tags' bytes') :
    IsSequence depth (tags ++ tags') (bytes ++ bytes') := by
  induction h with
  | nil => exact h'
  | cons hm h ih =>
    rw [List.append_assoc]
    exact .cons hm ih

/-- A sequence of members goes on where another one ends. -/
lemma of_append (h : IsSequence depth' tags' bytes) (hall : IsSequence depth tags (bytes ++ bytes')) :
    ∃ more, tags = tags' ++ more ∧ IsSequence depth more bytes' := by
  induction h generalizing tags with
  | nil => exact ⟨tags, rfl, hall⟩
  | @cons tag tags' member more hm h ih =>
    rw [List.append_assoc] at hall
    generalize hbytes : member ++ (more ++ bytes') = whole at hall
    cases hall with
    | nil => exact absurd (List.append_eq_nil_iff.mp hbytes).1 hm.ne_nil
    | cons hm' hall =>
      obtain ⟨rfl, rfl, rfl⟩ := hm.unique hm' hbytes
      obtain ⟨more, rfl, hmore⟩ := ih hall
      exact ⟨more, rfl, hmore⟩

lemma nil_iff : IsSequence depth tags [] ↔ tags = [] := by
  constructor
  · intro h
    generalize hbytes : [] = bytes at h
    cases h with
    | nil => rfl
    | cons hm h => exact absurd (List.append_eq_nil_iff.mp hbytes.symm).1 hm.ne_nil
  · rintro rfl
    exact .nil

/-- The bytes tell which members they are. -/
lemma tags_eq (h : IsSequence depth tags bytes) (h' : IsSequence depth' tags' bytes) :
    tags = tags' := by
  rw [← List.append_nil bytes] at h
  obtain ⟨more, rfl, hmore⟩ := h'.of_append h
  rw [nil_iff.mp hmore, List.append_nil]

/-- Of bytes with the same beginning, as many members are the same bytes. -/
lemma unique {more more' : Bytes} (h : IsSequence depth tags bytes)
    (h' : IsSequence depth' tags bytes') (heq : bytes ++ more = bytes' ++ more') :
    bytes = bytes' ∧ more = more' := by
  induction h generalizing bytes' with
  | nil =>
    cases h'
    exact ⟨rfl, heq⟩
  | cons hm h ih =>
    cases h' with
    | cons hm' h' =>
      rw [List.append_assoc, List.append_assoc] at heq
      obtain ⟨rfl, -, heq⟩ := hm.unique hm' heq
      obtain ⟨rfl, rfl⟩ := ih h' heq
      exact ⟨rfl, rfl⟩

end IsSequence

/-! ## Taking a member out -/

/-- Whole members, and the bytes that are left without one of them, which has the tag. -/
inductive IsCut (depth : Nat) (tag : Tag) : (bytes rest : Bytes) → Prop where
  | mk {tags tags' : List Tag} {before member after : Bytes} (hb : IsSequence depth tags before)
    (hm : IsMember depth tag member) (ha : IsSequence depth tags' after) :
    IsCut depth tag (before ++ (member ++ after)) (before ++ after)

section

variable {depth : Nat} {tag : Tag} {tags : List Tag} {bytes rest rest' : Bytes}

/-- Each of a sequence of members can be taken out. -/
lemma IsSequence.exists_isCut (h : IsSequence depth tags bytes) (ht : tag ∈ tags) :
    ∃ rest, IsCut depth tag bytes rest := by
  induction h with
  | nil => cases ht
  | @cons tag' tags member more hm h ih =>
    rcases List.mem_cons.mp ht with rfl | ht
    · have hnil : IsSequence depth [] [] := .nil
      exact ⟨_, .mk hnil hm h⟩
    · obtain ⟨rest, hb, hm', ha⟩ := ih ht
      rw [← List.append_assoc]
      exact ⟨_, .mk (.cons hm hb) hm' ha⟩

namespace IsCut

lemma length_le (h : IsCut depth tag bytes rest) : rest.length ≤ bytes.length := by
  cases h with
  | mk hb hm ha =>
    simp only [List.length_append]
    omega

/-- What is taken out is one of the members. -/
lemma mem_tags (h : IsCut depth tag bytes rest) (hseq : IsSequence depth tags bytes) :
    tag ∈ tags := by
  obtain ⟨hb, hm, ha⟩ := h
  rw [hseq.tags_eq (hb.append (.cons hm ha))]
  simp

/-- **One way to take a member out.**  Among members with tags of their own, the tag tells which
bytes are left. -/
lemma unique (h : IsCut depth tag bytes rest) (h' : IsCut depth tag bytes rest')
    (hseq : IsSequence depth tags bytes) (hnodup : tags.Nodup) : rest = rest' := by
  generalize hbytes : bytes = bytes' at h'
  obtain @⟨front, back, before, member, after, hb, hm, ha⟩ := h
  obtain @⟨front', back', before', member', after', hb', hm', ha'⟩ := h'
  have htags := hseq.tags_eq (hb.append (.cons hm ha))
  have htags' := (hbytes ▸ hseq).tags_eq (hb'.append (.cons hm' ha'))
  -- the tag occurs once, so there are as many members before it on both sides
  obtain ⟨hfront, hback⟩ : tag ∉ front ∧ tag ∉ back := by
    rw [htags, List.nodup_middle, List.nodup_cons, List.mem_append, not_or] at hnodup
    exact hnodup.1
  obtain ⟨rfl, -, rfl⟩ := (List.append_cons_inj_of_notMem hfront hback).mp (htags.symm.trans htags')
  obtain ⟨rfl, hmore⟩ := hb.unique hb' hbytes
  obtain ⟨-, -, rfl⟩ := hm.unique hm' hmore
  rfl

end IsCut

/-- Among members with tags of their own there is one way to take out each of them, and only
these. -/
lemma IsSequence.mem_tags_iff (h : IsSequence depth tags bytes) (hnodup : tags.Nodup) :
    tag ∈ tags ↔ ∃! rest, IsCut depth tag bytes rest := by
  constructor
  · intro ht
    obtain ⟨rest, hcut⟩ := h.exists_isCut ht
    exact ⟨rest, hcut, fun rest' hcut' => hcut'.unique hcut h hnodup⟩
  · rintro ⟨rest, hcut, -⟩
    exact hcut.mem_tags h

end

end Wire

end SchemaRpc
