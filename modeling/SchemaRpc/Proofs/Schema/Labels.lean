/-
# Labels have the intended values

The value that a label should have is its explicit one, or else the value of the label before it
plus one, which is zero for the first.  Labels of different names are numbered exactly if that is
possible: no label without an explicit value goes beyond the 32-bit integers, and no two values
are the same.  Otherwise the first label that stands in the way is named, with what is wrong.  In
an enum, looking up the value of a label and the label of a value undo each other.

* `allots_giveValue`: labels are numbered as the scheme of the enum intends.
* `EnumType.Represents.valueOf?_eq_some_iff`: which value a label has.
* `resolveEnum_intended`: the enum that is made, and the label that is refused.
-/
import SchemaRpc.Proofs.Schema.Allotment
import SchemaRpc.Proofs.Schema.Members
import SchemaRpc.Proofs.Tagged

namespace SchemaRpc

namespace Schema

/-! ## The values that labels should have -/

/-- One more than the value before; zero for the first label. -/
def valueAfter : Option Int → Int
  | some last => last + 1
  | none => 0

/-- The values of the labels of an enum: explicit ones, and else those after the value before. -/
def valueScheme (owner : String) : Scheme IntKind.i32.Ranged Int where
  Intends before explicit n :=
    match explicit with
    | some value => n = value.val
    | none => n = valueAfter before
  Refuses e error :=
    e.explicit = none ∧ 2147483647 < e.number ∧ error = .enumValueOverflow owner e.name
  taken e holder := .enumValueCollision owner e.name e.number holder

variable {owner : String} {done entries : List (Entry IntKind.i32.Ranged Int)}

variable (owner) in
lemma existsUnique_intendsValue (before : Option Int) (explicit : Option IntKind.i32.Ranged) :
    ∃! n, (valueScheme owner).Intends before explicit n := by
  cases explicit with
  | some value => exact ⟨value.val, rfl, fun _ h => h⟩
  | none => exact ⟨valueAfter before, rfl, fun _ h => h⟩

/-- Which labels can all have the values that they should have. -/
lemma faultless_valueScheme_iff : (valueScheme owner).Faultless entries ↔
    (∀ e ∈ entries, e.explicit = none → e.number ≤ 2147483647) ∧
      (entries.map (·.number)).Nodup := by
  constructor
  · rintro ⟨hadmitted, hnodup⟩
    refine ⟨fun e he hnone => ?_, hnodup⟩
    by_contra hlt
    exact hadmitted e he _ ⟨hnone, not_le.mp hlt, rfl⟩
  · rintro ⟨hbound, hnodup⟩
    refine ⟨fun e he error herror => ?_, hnodup⟩
    obtain ⟨hnone, hlt, -⟩ := herror
    exact absurd hlt (not_lt.mpr (hbound e he hnone))

/-! ## The values that are given -/

/-- What has been given: the values of some labels, the last one first. -/
structure Numbering.Holds (done : List (Entry IntKind.i32.Ranged Int)) (n : Numbering) : Prop where
  given : Keeps id n.given done
  next : n.next = valueAfter (lastNumber? done)
  least : IntKind.i32.least ≤ n.next
  fit : ∀ e ∈ done, IntKind.i32.Holds e.number

/-- The value of a label, and the values given after it. -/
def giveValue (owner : String) (n : Numbering) (l : Package.Label) :
    Resolved (Label × Numbering) := do
  let (value, n) ← (n.assign l.name l.value).mapError (·.toError owner l.name)
  return (⟨l.name, value⟩, n)

/-- Labels are resolved by giving each its value. -/
lemma resolveLabels_eq_giveAll (owner : String) (n : Numbering) (labels : List Package.Label) :
    resolveLabels owner n labels = giveAll (giveValue owner) n labels := by
  induction labels generalizing n with
  | nil => rfl
  | cons l labels ih =>
    rw [resolveLabels, giveAll, giveValue]
    rcases n.assign l.name l.value with fault | ⟨value, n'⟩
    · rfl
    · show (resolveLabels owner n' labels >>= fun more => pure (_ :: more)) = _
      rw [ih]
      rfl

namespace Numbering

variable {n : Numbering}

lemma holds_start : start.Holds [] := ⟨rfl, rfl, by decide, List.forall_mem_nil _⟩

/-- A value that no label has is given. -/
lemma Holds.give_of_fresh (h : n.Holds done) (e : Entry IntKind.i32.Ranged Int)
    {value : IntKind.i32.Ranged} (hnumber : e.number = value.val)
    (hfresh : ∀ e' ∈ done, e'.number ≠ e.number) :
    ∃ n', n.give e.name value = .ok (value, n') ∧ n'.Holds (done ++ [e]) := by
  rw [hnumber] at hfresh
  refine ⟨⟨(value.val, e.name) :: n.given, value.val + 1⟩, ?_, ?_, ?_, ?_, ?_⟩
  · rw [give, (h.given.lookup_eq_none_iff Function.injective_id).mpr hfresh]
  · exact h.given.append hnumber.symm
  · rw [lastNumber?_append_singleton, hnumber]
    rfl
  · exact value.holds.1.trans (Int.le_add_one le_rfl)
  · rw [List.forall_mem_append, List.forall_mem_singleton]
    exact ⟨h.fit, hnumber ▸ value.holds⟩

/-- A value that a label has is not given again. -/
lemma Holds.give_of_taken (h : n.Holds done) (hnodup : (done.map (·.number)).Nodup)
    {holder : Entry IntKind.i32.Ranged Int} (hholder : holder ∈ done)
    {value : IntKind.i32.Ranged} (hnumber : holder.number = value.val) (label : String) :
    n.give label value = .error (.taken value.val holder.name) := by
  rw [give, h.given.lookup_eq_some Function.injective_id hnodup hholder hnumber.symm]

lemma assign_implicit (label : String) {value : IntKind.i32.Ranged} (h : n.next = value.val) :
    n.assign label none = n.give label value := by
  rw [assign, IntKind.ofInt?_eq_some_iff.mpr h]

end Numbering

/-- A label is determined by its name and its number. -/
lemma Label.ext_val {l l' : Label} (h : (l.name, l.value.val) = (l'.name, l'.value.val)) :
    l = l' := by
  obtain ⟨name, value⟩ := l
  obtain ⟨name', value'⟩ := l'
  obtain ⟨hname, hvalue⟩ := Prod.mk.inj h
  exact Label.mk.injEq .. ▸ ⟨hname, IntKind.Ranged.ext hvalue⟩

/-- Labels are numbered as they should be. -/
lemma allots_giveValue (owner : String) :
    Allots (valueScheme owner) (fun l : Package.Label => (l.name, l.value))
      (fun (l : Label) e => (l.name, l.value.val) = (e.name, e.number)) Numbering.Holds
      (giveValue owner) := by
  refine ⟨?_, ?_⟩
  · rintro done n ⟨name, explicit⟩ ⟨_, _, k⟩ hn ⟨⟩ hintends hfaultless
    obtain ⟨hadmitted, hfresh⟩ := hfaultless.last
    -- what is to be given, be it explicit or not, is a value that no label has
    have hgive (value : IntKind.i32.Ranged) (hk : k = value.val)
        (hassign : n.assign name explicit = n.give name value) :
        ∃ l n', giveValue owner n ⟨name, explicit⟩ = .ok (l, n') ∧
          (l.name, l.value.val) = (name, k) ∧ n'.Holds (done ++ [⟨name, explicit, k⟩]) := by
      obtain ⟨n', hgives, hn'⟩ := hn.give_of_fresh ⟨name, explicit, k⟩ hk hfresh
      refine ⟨⟨name, value⟩, n', ?_, by rw [hk], hn'⟩
      rw [giveValue, hassign, hgives]
      rfl
    cases explicit with
    | some value => exact hgive value hintends rfl
    | none =>
      have hk : n.next = k := hn.next.trans hintends.symm
      have hle : k ≤ IntKind.i32.greatest := by
        by_contra hlt
        exact hadmitted _ ⟨rfl, not_le.mp hlt, rfl⟩
      have hholds : IntKind.i32.Holds k := ⟨hk ▸ hn.least, hle⟩
      exact hgive ⟨k, hholds⟩ rfl (Numbering.assign_implicit name hk)
  · rintro done n ⟨name, explicit⟩ ⟨_, _, k⟩ error hn ⟨⟩ hintends hfaultless hoffends
    -- an error of the numbering becomes one about the enum
    have hfails (fault : NumberFault) (h : n.assign name explicit = .error fault) :
        giveValue owner n ⟨name, explicit⟩ = .error (fault.toError owner name) := by
      rw [giveValue, h]
      rfl
    cases hoffends with
    | refused h =>
      obtain ⟨hnone, hlt, rfl⟩ := h
      obtain rfl : explicit = none := hnone
      have hk : n.next = k := hn.next.trans hintends.symm
      refine hfails .overflow ?_
      have hbeyond : IntKind.i32.ofInt? n.next = none :=
        IntKind.ofInt?_eq_none_iff.mpr fun hholds => absurd hlt (not_lt.mpr (hk ▸ hholds.2))
      rw [Numbering.assign, hbeyond]
    | @taken holder hholder hnumber =>
      obtain rfl : holder.number = k := hnumber
      let value : IntKind.i32.Ranged := ⟨holder.number, hn.fit holder hholder⟩
      have hassign : n.assign name explicit = n.give name value := by
        cases explicit with
        | some wanted =>
          obtain rfl : value = wanted := IntKind.Ranged.ext hintends
          rfl
        | none => exact Numbering.assign_implicit name (hn.next.trans hintends.symm)
      have hgive := hn.give_of_taken hfaultless.nodup hholder (show _ = value.val from rfl) name
      exact hfails _ (hassign.trans hgive)

/-! ## Looking up values and labels -/

section

variable {e : EnumType} {d : Package.Owner Package.Label} {label : String}
  {value : IntKind.i32.Ranged}

/-- The value of a label. -/
lemma EnumType.Represents.valueOf?_eq_some_iff (h : e.Represents d) :
    e.valueOf? label = some value ↔ ∃ l ∈ e.labels, l.name = label ∧ l.value = value := by
  rw [valueOf?, Option.map_eq_some_iff]
  constructor
  · rintro ⟨l, hl, hvalue⟩
    obtain ⟨hmem, hname⟩ := (find?_eq_some_iff_keyOf Label.name h.names).mp hl
    exact ⟨l, hmem, hname, hvalue⟩
  · rintro ⟨l, hmem, hname, hvalue⟩
    exact ⟨l, (find?_eq_some_iff_keyOf Label.name h.names).mpr ⟨hmem, hname⟩, hvalue⟩

/-- The label of a value. -/
lemma EnumType.Represents.labelOf?_eq_some_iff (h : e.Represents d) :
    e.labelOf? value = some label ↔ ∃ l ∈ e.labels, l.name = label ∧ l.value = value := by
  rw [labelOf?, Option.map_eq_some_iff]
  constructor
  · rintro ⟨l, hl, hname⟩
    obtain ⟨hmem, hvalue⟩ := (find?_eq_some_iff_keyOf Label.value h.values).mp hl
    exact ⟨l, hmem, hname, hvalue⟩
  · rintro ⟨l, hmem, hname, hvalue⟩
    exact ⟨l, (find?_eq_some_iff_keyOf Label.value h.values).mpr ⟨hmem, hvalue⟩, hname⟩

/-- An enum contains the values of its labels. -/
lemma EnumType.Represents.contains_iff (h : e.Represents d) :
    e.contains value ↔ ∃ label, e.valueOf? label = some value := by
  simp only [h.valueOf?_eq_some_iff]
  rw [contains, List.any_eq_true]
  constructor
  · rintro ⟨l, hl, hvalue⟩
    exact ⟨l.name, l, hl, rfl, by simpa using hvalue⟩
  · rintro ⟨_, l, hl, rfl, hvalue⟩
    exact ⟨l, hl, by simpa using hvalue⟩

end

/-! ## The enum -/

lemma resolveEnum_of_unique {name : String} {labels : List Package.Label}
    (hunique : (labels.map (·.name)).Nodup) : resolveEnum name labels =
      (giveAll (giveValue name) .start labels).map fun out => ⟨name, out⟩ := by
  rw [resolveEnum, checkUnique_eq_ok_iff.mpr hunique, Outcome.ok_bind, resolveLabels_eq_giveAll]
  cases giveAll (giveValue name) .start labels <;> rfl

/-- **Enum values are the intended ones.**  Labels of different names have one list of intended
values.  They make an enum exactly if no value that is not explicit lies beyond the 32-bit
integers and all values differ; then it has just these labels with the intended values, in the
order of declaration.  Otherwise the error is that of the first label that stands in the way: its
value is beyond, or that of a label before it.  In the enum, the value of a label and the label of
a value undo each other, and the enum contains just the values of its labels. -/
theorem resolveEnum_intended (name : String) {labels : List Package.Label}
    (hunique : (labels.map (·.name)).Nodup) :
    ∃ entries : List (Entry IntKind.i32.Ranged Int),
      (∀ others, others.map Entry.declared = labels.map (fun l => (l.name, l.value)) ∧
        (valueScheme name).Intended none others ↔ others = entries) ∧
      (∀ e, resolveEnum name labels = .ok e ↔
        ((∀ n ∈ entries, n.explicit = none → n.number ≤ 2147483647) ∧
          (entries.map (·.number)).Nodup) ∧ e.name = name ∧
            e.labels.map (fun l => (l.name, l.value.val)) =
              entries.map fun n => (n.name, n.number)) ∧
      (∀ error, resolveEnum name labels = .error error ↔
        (valueScheme name).FirstOffence entries error) ∧
      ∀ e, resolveEnum name labels = .ok e →
        (∀ label value, e.valueOf? label = some value ↔ e.labelOf? value = some label) ∧
        ∀ value, e.contains value ↔ ∃ label, e.valueOf? label = some value := by
  obtain ⟨entries, hentries⟩ := Scheme.exists_intended
    (existsUnique_intendsValue name) none (labels.map fun l => (l.name, l.value))
  obtain ⟨hdeclared, hintended⟩ := (hentries entries).mpr rfl
  have hallots := allots_giveValue name
  refine ⟨entries, hentries, fun e => ?_, fun error => ?_, fun e he => ?_⟩
  · have hok (out : List Label) := hallots.eq_ok_iff Numbering.holds_start hdeclared.symm
      hintended (fun _ _ _ h h' => Label.ext_val (h.trans h'.symm)) out
    simp only [faultless_valueScheme_iff] at hok
    rw [resolveEnum_of_unique hunique, Outcome.map_eq_ok_iff, ← List.forall₂_eq_eq_eq,
      List.forall₂_map_left_iff, List.forall₂_map_right_iff]
    constructor
    · rintro ⟨out, hout, rfl⟩
      obtain ⟨hfaultless, hvalues⟩ := (hok out).mp hout
      exact ⟨hfaultless, rfl, hvalues⟩
    · rintro ⟨hfaultless, rfl, hvalues⟩
      exact ⟨e.labels, (hok e.labels).mpr ⟨hfaultless, hvalues⟩, rfl⟩
  · rw [resolveEnum_of_unique hunique,
      ← hallots.eq_error_iff Numbering.holds_start hdeclared.symm hintended]
    cases giveAll (giveValue name) .start labels <;> simp [Except.map]
  · have hrepresents : e.Represents ⟨name, labels, []⟩ := resolveEnum_eq_ok he
    refine ⟨fun label value => ?_, fun value => hrepresents.contains_iff⟩
    rw [hrepresents.valueOf?_eq_some_iff, hrepresents.labelOf?_eq_some_iff]

/-- The priorities of parcels, where the label without a value comes after the one before it. -/
def priorities : List Package.Label :=
  [⟨"low", some ⟨-1, by decide⟩⟩, ⟨"usual", none⟩, ⟨"urgent", some ⟨10, by decide⟩⟩]

/-- The enum of priorities. -/
theorem resolveEnum_intended_priorities :
    (priorities.map (·.name)).Nodup ∧ ∃ entries : List (Entry IntKind.i32.Ranged Int),
      (∀ others, others.map Entry.declared = priorities.map (fun l => (l.name, l.value)) ∧
        (valueScheme "Priority").Intended none others ↔ others = entries) ∧
      (∀ e, resolveEnum "Priority" priorities = .ok e ↔
        ((∀ n ∈ entries, n.explicit = none → n.number ≤ 2147483647) ∧
          (entries.map (·.number)).Nodup) ∧ e.name = "Priority" ∧
            e.labels.map (fun l => (l.name, l.value.val)) =
              entries.map fun n => (n.name, n.number)) ∧
      (∀ error, resolveEnum "Priority" priorities = .error error ↔
        (valueScheme "Priority").FirstOffence entries error) ∧
      ∀ e, resolveEnum "Priority" priorities = .ok e →
        (∀ label value, e.valueOf? label = some value ↔ e.labelOf? value = some label) ∧
        ∀ value, e.contains value ↔ ∃ label, e.valueOf? label = some value :=
  ⟨by decide, resolveEnum_intended "Priority" (by decide)⟩

/-- A label that would come after the last value has none. -/
example : (resolveEnum "Priority" [⟨"most", some ⟨2147483647, by decide⟩⟩, ⟨"more", none⟩]) =
    .error (.enumValueOverflow "Priority" "more") := by rfl

end Schema

end SchemaRpc
