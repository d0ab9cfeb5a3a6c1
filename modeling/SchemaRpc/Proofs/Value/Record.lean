/-
# Records as functions from tags to states

A record is determined by the state that it gives each tag.  A record with one state for each
field of a struct is built from these states, whatever record they come from:

* `Record.ext` turns equal states into equal records,
* `StructType.Ascends.eq_recordOf` recognises the record of the states of a struct's fields.
-/
import Mathlib.Order.Fin.Basic
import SchemaRpc.Proofs.Ascending
import SchemaRpc.Proofs.Tagged

namespace SchemaRpc

namespace Record

@[simp] lemma get_empty (t : Tag) : empty.get t = .absent := rfl

/-- Setting a state changes what the tag has and nothing else. -/
lemma get_set (r : Record) (t t' : Tag) (state : FieldState) :
    (r.set t state).get t' = if t' = t then state else r.get t' := by
  cases state with
  | absent =>
    rw [set, get, FieldState.toSlot, Ascending.find?_erase]
    by_cases h : t' = t
    · rw [if_pos h, if_pos h]; rfl
    · rw [if_neg h, if_neg h]; rfl
  | present value | null | defaulted value =>
    rw [set, get, FieldState.toSlot, Ascending.find?_insert]
    by_cases h : t' = t
    · rw [if_pos h, if_pos h]; rfl
    · rw [if_neg h, if_neg h]; rfl

/-- The tags of the stored fields are those whose field is not absent. -/
lemma mem_tags_iff (r : Record) (t : Tag) : t ∈ r.tags ↔ r.get t ≠ .absent := by
  rw [tags, Ascending.mem_keys_iff, get]
  rcases r.find? t with _ | _ | _ | _ <;> simp [FieldState.ofSlot]

/-- The listed states are those of the fields that are not absent. -/
lemma mem_toStates_iff (r : Record) (t : Tag) (state : FieldState) :
    (t, state) ∈ r.toStates ↔ r.get t = state ∧ state ≠ .absent := by
  rw [toStates, List.mem_map]
  constructor
  · rintro ⟨⟨t', slot⟩, hslot, heq⟩
    obtain ⟨rfl, rfl⟩ := Prod.mk.inj heq
    rw [get, (Ascending.mem_toList_iff t' slot r).mp hslot]
    exact ⟨rfl, by cases slot <;> exact FieldState.noConfusion⟩
  · rintro ⟨rfl, hstate⟩
    cases hfind : r.find? t with
    | none => exact absurd (by rw [get, hfind]; rfl) hstate
    | some slot => exact ⟨(t, slot), (Ascending.mem_toList_iff t slot r).mpr hfind, by rw [get, hfind]⟩

/-- The states are listed by ascending tags. -/
lemma pairwise_toStates (r : Record) : r.toStates.Pairwise (·.1 < ·.1) := by
  rw [toStates, List.pairwise_map]
  exact List.pairwise_map.mp (Ascending.pairwise_keys r)

/-- A record is determined by the states of its tags. -/
theorem ext {r q : Record} (h : ∀ t, r.get t = q.get t) : r = q := by
  refine Ascending.ext r q fun t => ?_
  have hstate := congrArg FieldState.toSlot (h t)
  rwa [get, get, FieldState.toSlot_ofSlot, FieldState.toSlot_ofSlot] at hstate

lemma set_get (r : Record) (t : Tag) : r.set t (r.get t) = r := by
  refine ext fun t' => ?_
  rw [get_set]
  split
  · rename_i h
    rw [h]
  · rfl

/-- The record after the states of a list have been set one after the other. -/
def setAll (r : Record) (states : List (Tag × FieldState)) : Record :=
  states.foldl (fun r s => r.set s.1 s.2) r

@[simp] lemma setAll_nil (r : Record) : r.setAll [] = r := rfl

@[simp] lemma setAll_cons (r : Record) (s : Tag × FieldState) (states : List (Tag × FieldState)) :
    r.setAll (s :: states) = (r.set s.1 s.2).setAll states := rfl

/-- States of other tags leave the state of a tag as it is. -/
lemma get_setAll_of_not_mem {t : Tag} (states : List (Tag × FieldState)) (r : Record)
    (h : ∀ s ∈ states, s.1 ≠ t) : (r.setAll states).get t = r.get t := by
  induction states generalizing r with
  | nil => rfl
  | cons s states ih =>
    rw [setAll_cons, ih _ fun s' hs' => h s' (List.mem_cons_of_mem _ hs'), get_set,
      if_neg (h s List.mem_cons_self).symm]

/-- After states have been set, each tag has one of them or what it had before. -/
lemma get_setAll_eq_or_mem (t : Tag) (states : List (Tag × FieldState)) (r : Record) :
    (r.setAll states).get t = r.get t ∨ (t, (r.setAll states).get t) ∈ states := by
  induction states generalizing r with
  | nil => exact .inl rfl
  | cons s states ih =>
    rw [setAll_cons]
    rcases ih (r.set s.1 s.2) with h | h
    · rw [h, get_set]
      split
      · rename_i heq
        rw [heq]
        exact .inr List.mem_cons_self
      · exact .inl rfl
    · exact .inr (List.mem_cons_of_mem s h)

/-- The states of a list that names no tag twice are found by lookup afterwards. -/
lemma get_setAll {t : Tag} (states : List (Tag × FieldState)) (r : Record)
    (hnodup : (states.map (·.1)).Nodup) :
    (r.setAll states).get t = (states.lookup t).getD (r.get t) := by
  induction states generalizing r with
  | nil => rfl
  | cons s states ih =>
    rw [List.map_cons, List.nodup_cons] at hnodup
    obtain ⟨hfresh, hnodup⟩ := hnodup
    rw [setAll_cons, List.lookup_cons]
    by_cases h : t = s.1
    · have hother : ∀ s' ∈ states, s'.1 ≠ t := by
        rintro s' hs' rfl
        exact hfresh (h ▸ List.mem_map_of_mem hs')
      rw [get_setAll_of_not_mem states _ hother, get_set, if_pos h]
      simp [h]
    · have hne : (t == s.1) = false := by simpa using h
      rw [ih _ hnodup, get_set, if_neg h, hne]

/-- Each state of a list that names no tag twice is found by its tag afterwards. -/
lemma get_setAll_of_mem {t : Tag} {state : FieldState} {states : List (Tag × FieldState)}
    (r : Record) (hnodup : (states.map (·.1)).Nodup) (h : (t, state) ∈ states) :
    (r.setAll states).get t = state := by
  induction states generalizing r with
  | nil => cases h
  | cons s states ih =>
    rw [List.map_cons, List.nodup_cons] at hnodup
    rw [setAll_cons]
    rcases List.mem_cons.mp h with rfl | h
    · have hother : ∀ s ∈ states, s.1 ≠ t := by
        rintro s hs rfl
        exact hnodup.1 (List.mem_map.mpr ⟨s, hs, rfl⟩)
      rw [get_setAll_of_not_mem states _ hother, get_set, if_pos rfl]
    · exact ih _ hnodup.2 h

/-- Leaving one state out of a list leaves its tag without a state. -/
lemma ofList_append_of_cons {t : Tag} {state : FieldState} {front back : List (Tag × FieldState)}
    (hnodup : ((front ++ (t, state) :: back).map (·.1)).Nodup) :
    ofList (front ++ back) = (ofList (front ++ (t, state) :: back)).set t .absent := by
  refine ext fun t' => ?_
  rw [get_set]
  split
  · rename_i h
    subst h
    rw [List.map_append, List.map_cons, List.nodup_middle, List.nodup_cons, ← List.map_append]
      at hnodup
    exact get_setAll_of_not_mem _ .empty fun s hs heq =>
      hnodup.1 (List.mem_map.mpr ⟨s, hs, heq⟩)
  · rename_i h
    have hne : (t' == t) = false := by simpa using h
    have hless := hnodup.sublist (((List.sublist_cons_self _ back).append_left front).map _)
    refine (get_setAll _ .empty hless).trans ((get_setAll _ .empty hnodup).trans ?_).symm
    rw [List.lookup_append, List.lookup_append, List.lookup_cons, hne]

end Record

namespace Schema

/-- The record with a state for each field of a struct. -/
def StructType.recordOf (struct : StructType) (state : Field → FieldState) : Record :=
  .ofList (struct.fields.map fun f => (f.tag, state f))

variable {struct : StructType} (state : Field → FieldState)

lemma StructType.recordOf_congr {state state' : Field → FieldState}
    (h : ∀ f ∈ struct.fields, state f = state' f) :
    struct.recordOf state = struct.recordOf state' := by
  unfold recordOf
  rw [List.map_congr_left fun f hf => by rw [h f hf]]

lemma StructType.Ascends.get_recordOf_of_none (h : struct.Ascends) {t : Tag}
    (ht : struct.fieldByTag? t = none) : (struct.recordOf state).get t = .absent := by
  rw [h.fieldByTag?_eq_none_iff] at ht
  refine (Record.get_setAll_of_not_mem _ .empty ?_).trans (Record.get_empty t)
  intro s hs
  obtain ⟨f, hf, rfl⟩ := List.mem_map.mp hs
  exact ht f hf

lemma StructType.Ascends.get_recordOf (h : struct.Ascends) {f : Field}
    (hf : f ∈ struct.fields) : (struct.recordOf state).get f.tag = state f := by
  have hnodup : ((struct.fields.map fun f => (f.tag, state f)).map (·.1)).Nodup := by
    rw [List.map_map]
    exact h.nodup_tags
  refine (Record.get_setAll _ .empty hnodup).trans ?_
  rw [lookup_map_tagOf, h.find?_tag, h.fieldByTag?_tag hf]
  rfl

variable {state}

/-- A record that gives states to the fields of a struct only is the record of these states. -/
lemma StructType.Ascends.eq_recordOf (h : struct.Ascends) {r : Record}
    (hfields : ∀ f ∈ struct.fields, r.get f.tag = state f)
    (hother : ∀ t, struct.fieldByTag? t = none → r.get t = .absent) :
    r = struct.recordOf state := by
  refine Record.ext fun t => ?_
  cases ht : struct.fieldByTag? t with
  | none => rw [hother t ht, h.get_recordOf_of_none state ht]
  | some f =>
    obtain ⟨hf, rfl⟩ := mem_of_fieldByTag? ht
    rw [hfields f hf, h.get_recordOf state hf]

end Schema

end SchemaRpc
