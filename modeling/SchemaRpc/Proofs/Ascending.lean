/-
# Ascending maps as functions

What the operations on an ascending map do to the entry stored under a key.  A map is
determined by the entries that it finds, so equality of two maps is shown key by key:

* `Ascending.find?_insert` and `Ascending.find?_erase` describe the operations,
* `Ascending.forall_find?_iff` compares two maps key by key or entry by entry,
* `Ascending.ext` turns equal entries into equal maps.
-/
import Mathlib.Data.List.Forall2
import Mathlib.Data.List.Induction
import Mathlib.Order.Lattice
import SchemaRpc.Ascending

namespace SchemaRpc

namespace Ascending

variable {κ : Type} [LinearOrder κ] [DecidableEq κ] {α : Type} {floor : Option κ}

@[simp] lemma find?_nil (k : κ) : (nil : Ascending κ α floor).find? k = none := rfl

lemma find?_cons {key : κ} {above : ∀ b ∈ floor, b < key} {entry : α}
    {rest : Ascending κ α (some key)} (k : κ) :
    (cons key above entry rest).find? k = if k = key then some entry else rest.find? k := rfl

/-- Nothing is stored under a key that is not above the floor. -/
lemma find?_eq_none_of_le {b k : κ} (hk : k ≤ b) :
    {floor : Option κ} → (m : Ascending κ α floor) → b ∈ floor → m.find? k = none
  | _, .nil, _ => rfl
  | _, .cons key above entry rest, hb => by
    have hlt : k < key := hk.trans_lt (above b hb)
    rw [find?_cons, if_neg hlt.ne]
    exact find?_eq_none_of_le hlt.le rest rfl

lemma find?_insertAbove [DecidableLT κ] (a : α) (k k' : κ) :
    {floor : Option κ} → (m : Ascending κ α floor) → (hk : ∀ b ∈ floor, b < k) →
      (m.insertAbove k hk a).find? k' = if k' = k then some a else m.find? k'
  | _, .nil, _ => rfl
  | _, .cons key above entry rest, hk => by
    rw [insertAbove]
    split
    · rfl
    · rename_i hbefore
      split
      · rename_i hafter
        rw [find?_cons, find?_insertAbove a k k' rest, find?_cons]
        by_cases h : k' = key
        · rw [if_pos h, if_pos h, if_neg (h.trans_ne hafter.ne)]
        · rw [if_neg h, if_neg h]
      · rename_i hafter
        obtain rfl : k = key := le_antisymm (not_lt.mp hafter) (not_lt.mp hbefore)
        rw [find?_cons, find?_cons]
        by_cases h : k' = k
        · rw [if_pos h, if_pos h]
        · rw [if_neg h, if_neg h, if_neg h]

/-- Storing an entry changes what is found under its key and nothing else. -/
lemma find?_insert [DecidableLT κ] (m : Ascending κ α none) (k k' : κ) (a : α) :
    (m.insert k a).find? k' = if k' = k then some a else m.find? k' :=
  find?_insertAbove a k k' m _

@[simp] lemma find?_lower [Trans (α := κ) (· < ·) (· < ·) (· < ·)] {key : κ}
    (above : ∀ b ∈ floor, b < key) (m : Ascending κ α (some key)) (k : κ) :
    (m.lower above).find? k = m.find? k := by
  cases m <;> rfl

/-- Removing an entry changes what is found under its key and nothing else. -/
lemma find?_erase [Trans (α := κ) (· < ·) (· < ·) (· < ·)] (k k' : κ) :
    {floor : Option κ} → (m : Ascending κ α floor) →
      (m.erase k).find? k' = if k' = k then none else m.find? k'
  | _, .nil => by simp [erase]
  | _, .cons key above entry rest => by
    rw [erase]
    by_cases hk : k = key
    · subst hk
      rw [if_pos rfl, find?_lower, find?_cons]
      by_cases h : k' = k
      · rw [if_pos h, find?_eq_none_of_le h.le rest rfl]
      · rw [if_neg h, if_neg h]
    · rw [if_neg hk, find?_cons, find?_erase k k' rest, find?_cons]
      by_cases h : k' = key
      · rw [if_pos h, if_neg (h.trans_ne (Ne.symm hk)), if_pos h]
      · rw [if_neg h, if_neg h]

/-- Two maps are related key by key exactly if their listed entries are, one by one.  The relation
keeps a key that only one of the maps has from being related. -/
lemma forall_find?_iff {β : Type} {R : Option α → Option β → Prop} (hnone : R none none)
    (hleft : ∀ a, ¬ R (some a) none) (hright : ∀ b, ¬ R none (some b)) :
    {floor floor' : Option κ} → (m : Ascending κ α floor) → (n : Ascending κ β floor') →
      ((∀ k, R (m.find? k) (n.find? k)) ↔
        List.Forall₂ (fun x y => x.1 = y.1 ∧ R (some x.2) (some y.2)) m.toList n.toList)
  | _, _, .nil, .nil => by simp [hnone]
  | _, _, .nil, .cons key _ b _ => by
    refine iff_of_false (fun h => hright b ?_) (by simp)
    simpa [find?_cons] using h key
  | _, _, .cons key _ a _, .nil => by
    refine iff_of_false (fun h => hleft a ?_) (by simp)
    simpa [find?_cons] using h key
  | _, _, .cons key above a rest, .cons key' above' b rest' => by
    rw [toList_cons, toList_cons, List.forall₂_cons,
      ← forall_find?_iff hnone hleft hright rest rest']
    constructor
    · intro h
      -- each of the two first keys is found in the other map, hence not below its first key
      have hle : key ≤ key' := by
        by_contra hlt
        have hkey := h key'
        rw [find?_cons, find?_cons, if_pos rfl, if_neg (not_le.mp hlt).ne,
          find?_eq_none_of_le (not_le.mp hlt).le rest rfl] at hkey
        exact hright b hkey
      have hge : key' ≤ key := by
        by_contra hlt
        have hkey := h key
        rw [find?_cons, find?_cons, if_pos rfl, if_neg (not_le.mp hlt).ne,
          find?_eq_none_of_le (not_le.mp hlt).le rest' rfl] at hkey
        exact hleft a hkey
      obtain rfl := le_antisymm hle hge
      refine ⟨⟨rfl, by simpa [find?_cons] using h key⟩, fun k => ?_⟩
      by_cases hk : k ≤ key
      · rwa [find?_eq_none_of_le hk rest rfl, find?_eq_none_of_le hk rest' rfl]
      · have hfind := h k
        rwa [find?_cons, find?_cons, if_neg (not_le.mp hk).ne', if_neg (not_le.mp hk).ne']
          at hfind
    · rintro ⟨⟨rfl, hentry⟩, hrest⟩ k
      dsimp only at hentry
      rw [find?_cons, find?_cons]
      split
      · exact hentry
      · exact hrest k

/-- A map is determined by the entries that it finds. -/
theorem ext (m n : Ascending κ α floor) (h : ∀ k, m.find? k = n.find? k) : m = n := by
  rw [forall_find?_iff rfl (fun _ => Option.some_ne_none _) fun _ => (Option.some_ne_none _).symm]
    at h
  have hentries : List.Forall₂ (· = ·) m.toList n.toList :=
    h.imp fun x y hxy => Prod.ext hxy.1 (Option.some.inj hxy.2)
  rw [List.forall₂_eq_eq_eq] at hentries
  exact toList_injective m n hentries

/-- The keys are those under which an entry is stored. -/
lemma mem_keys_iff (k : κ) :
    {floor : Option κ} → (m : Ascending κ α floor) → (k ∈ m.keys ↔ (m.find? k).isSome)
  | _, .nil => by simp [keys]
  | _, .cons key _ entry rest => by
    have hkeys : (cons key ‹_› entry rest).keys = key :: rest.keys := rfl
    rw [hkeys, List.mem_cons, find?_cons, mem_keys_iff k rest]
    by_cases hk : k = key
    · simp [hk]
    · simp [hk]

/-- The listed entries are those that are found under their keys. -/
lemma mem_toList_iff (k : κ) (a : α) :
    {floor : Option κ} → (m : Ascending κ α floor) → ((k, a) ∈ m.toList ↔ m.find? k = some a)
  | _, .nil => by simp
  | _, .cons key above entry rest => by
    rw [toList_cons, List.mem_cons, mem_toList_iff k a rest, find?_cons, Prod.mk.injEq]
    by_cases hk : k = key
    · -- the key of the first entry is not among those of the others
      have hrest : rest.find? k = none := find?_eq_none_of_le hk.le rest rfl
      simp [hk ▸ hrest, hk, eq_comm]
    · simp [hk]

/-- The keys stand in ascending order. -/
lemma pairwise_keys :
    {floor : Option κ} → (m : Ascending κ α floor) → m.keys.Pairwise (· < ·)
  | _, .nil => List.Pairwise.nil
  | _, .cons key above entry rest => by
    have hkeys : (cons key above entry rest).keys = key :: rest.keys := rfl
    rw [hkeys, List.pairwise_cons]
    refine ⟨fun k hk => ?_, pairwise_keys rest⟩
    by_contra hle
    rw [mem_keys_iff, find?_eq_none_of_le (not_lt.mp hle) rest rfl] at hk
    cases hk

/-- In a map made from a list an entry is the last one of the list with its key. -/
lemma find?_ofList [DecidableLT κ] (entries : List (κ × α)) (k : κ) :
    (ofList entries).find? k = entries.reverse.lookup k := by
  induction entries using List.reverseRecOn with
  | nil => rfl
  | append_singleton entries e ih =>
    rw [ofList, List.foldl_append, List.foldl_cons, List.foldl_nil, find?_insert, ← ofList, ih,
      List.reverse_append, List.reverse_singleton, List.singleton_append, List.lookup_cons]
    by_cases hk : k = e.1
    · rw [if_pos hk, beq_iff_eq.mpr hk]
    · rw [if_neg hk, beq_eq_false_iff_ne.mpr hk]

end Ascending

end SchemaRpc
