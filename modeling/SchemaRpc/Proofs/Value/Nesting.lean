/-
# How deep values nest

Structs, unions and arrays count; what lies inside a field counts only if the field is sent.
-/
import SchemaRpc.Proofs.Value.Record
import SchemaRpc.Schema.Basic

namespace SchemaRpc

namespace Value

mutual

/-- The number of structs, unions and arrays on the deepest path through values that are sent. -/
def nesting : Value → Nat
  | .bool _ | .int _ _ | .f32 _ | .f64 _ | .string _ | .bytes _ | .enum _ => 0
  | .union _ payload => payload.nesting + 1
  | .struct slots => slotsNesting slots + 1
  | .array items => itemsNesting items + 1

/-- The greatest nesting of a value that is sent in a field. -/
def slotsNesting : {floor : Option Tag} → Slots floor → Nat
  | _, .nil => 0
  | _, .cons _ _ slot more => max (slotNesting slot) (slotsNesting more)

/-- The nesting of the value that is sent in a field. -/
def slotNesting : Slot Value → Nat
  | .present value => value.nesting
  | .null | .defaulted _ => 0

/-- The greatest nesting of an item. -/
def itemsNesting : List Value → Nat
  | [] => 0
  | value :: more => max value.nesting (itemsNesting more)

end

/-- The nesting inside the outermost value: a struct or union that stands by itself does not
count. -/
def nestingAt (type : TypeRef) (v : Value) : Nat :=
  match type with
  | .struct _ | .union _ => v.nesting - 1
  | .prim _ | .enum _ | .array _ => v.nesting

lemma nesting_union (active : Tag) (payload : Value) :
    (Value.union active payload).nesting = payload.nesting + 1 := rfl

lemma nesting_struct (r : Record) :
    (Value.struct r).nesting = slotsNesting r + 1 := rfl

lemma nesting_array (items : List Value) :
    (Value.array items).nesting = itemsNesting items + 1 := rfl

@[simp] lemma slotNesting_present (x : Value) : slotNesting (.present x) = x.nesting := rfl

@[simp] lemma slotsNesting_nil {floor : Option Tag} :
    slotsNesting (.nil : Slots floor) = 0 := rfl

@[simp] lemma slotsNesting_cons {floor : Option Tag} {key : Tag} (above) (slot : Slot Value)
    (more : Slots (some key)) :
    slotsNesting (.cons key above slot more : Slots floor) =
      max (slotNesting slot) (slotsNesting more) := rfl

@[simp] lemma itemsNesting_nil : itemsNesting [] = 0 := rfl

@[simp] lemma itemsNesting_cons (x : Value) (items : List Value) :
    itemsNesting (x :: items) = max x.nesting (itemsNesting items) := rfl

lemma slotsNesting_le_iff {n : Nat} {floor : Option Tag} (slots : Slots floor) :
    slotsNesting slots ≤ n ↔ ∀ t x, slots.find? t = some (.present x) → x.nesting ≤ n := by
  induction slots with
  | nil => simp
  | cons key above slot more ih =>
    rw [slotsNesting_cons, Nat.max_le, ih]
    constructor
    · rintro ⟨hslot, hrest⟩ t x hx
      rw [Ascending.find?_cons] at hx
      split at hx
      · obtain rfl := Option.some.inj hx
        rwa [slotNesting_present] at hslot
      · exact hrest t x hx
    · intro h
      refine ⟨?_, fun t x hx => ?_⟩
      · cases slot with
        | present value => exact h key value (by rw [Ascending.find?_cons, if_pos rfl])
        | null | defaulted value => exact Nat.zero_le n
      · refine h t x ?_
        have hne : t ≠ key := by
          rintro rfl
          rw [Ascending.find?_eq_none_of_le le_rfl more rfl] at hx
          cases hx
        rw [Ascending.find?_cons, if_neg hne, hx]

lemma nesting_union_le_iff {active : Tag} {payload : Value} {n : Nat} :
    (Value.union active payload).nesting ≤ n ↔ ∃ m, n = m + 1 ∧ payload.nesting ≤ m := by
  rw [nesting_union]
  constructor
  · intro h
    exact ⟨n - 1, by omega, by omega⟩
  · rintro ⟨m, rfl, h⟩
    omega

lemma nesting_struct_le_succ_iff {r : Record} {n : Nat} :
    (Value.struct r).nesting ≤ n + 1 ↔ ∀ t x, r.get t = .present x → x.nesting ≤ n := by
  rw [nesting_struct, Nat.add_le_add_iff_right, slotsNesting_le_iff]
  refine forall₂_congr fun t x => ?_
  rw [Record.get]
  rcases r.find? t with _ | _ | _ | _ <;> simp [FieldState.ofSlot]

lemma nesting_struct_le_iff {r : Record} {n : Nat} : (Value.struct r).nesting ≤ n ↔
    ∃ m, n = m + 1 ∧ ∀ t x, r.get t = .present x → x.nesting ≤ m := by
  cases n with
  | zero => simp [nesting_struct]
  | succ n => simp [nesting_struct_le_succ_iff]

lemma nesting_array_le_iff {items : List Value} {n : Nat} : (Value.array items).nesting ≤ n ↔
    ∃ m, n = m + 1 ∧ ∀ x ∈ items, x.nesting ≤ m := by
  have hitems (m : Nat) : itemsNesting items ≤ m ↔ ∀ x ∈ items, x.nesting ≤ m := by
    induction items with
    | nil => simp
    | cons x items ih => rw [itemsNesting_cons, Nat.max_le, ih, List.forall_mem_cons]
  cases n with
  | zero => simp [nesting_array]
  | succ n => simp [nesting_array, hitems]

/-- What is nested in a value nests less deep than the value. -/
lemma nesting_lt_union (active : Tag) (payload : Value) :
    payload.nesting < (Value.union active payload).nesting := by
  rw [nesting_union]
  exact Nat.lt_succ_self _

lemma nesting_lt_struct {r : Record} {t : Tag} {x : Value} (hx : r.get t = .present x) :
    x.nesting < (Value.struct r).nesting := by
  obtain ⟨m, hm, hfields⟩ := nesting_struct_le_iff.mp (le_refl (Value.struct r).nesting)
  have hle := hfields t x hx
  omega

lemma nesting_lt_array {items : List Value} {x : Value} (hx : x ∈ items) :
    x.nesting < (Value.array items).nesting := by
  obtain ⟨m, hm, hitems⟩ := nesting_array_le_iff.mp (le_refl (Value.array items).nesting)
  have hle := hitems x hx
  omega

lemma nestingAt_union_le_iff {id n : Nat} {active : Tag} {payload : Value} :
    nestingAt (.union id) (.union active payload) ≤ n ↔ payload.nesting ≤ n := by
  rw [nestingAt, nesting_union, Nat.add_sub_cancel]

lemma nestingAt_struct_le_iff {id n : Nat} {r : Record} :
    nestingAt (.struct id) (.struct r) ≤ n ↔ ∀ t x, r.get t = .present x → x.nesting ≤ n := by
  rw [nestingAt, ← nesting_struct_le_succ_iff, Nat.sub_le_iff_le_add]

lemma nestingAt_of_ne {type : TypeRef} (hstruct : ∀ id, type ≠ .struct id)
    (hunion : ∀ id, type ≠ .union id) (v : Value) : nestingAt type v = v.nesting := by
  cases type with
  | struct id => exact absurd rfl (hstruct id)
  | union id => exact absurd rfl (hunion id)
  | prim | enum | array => rfl

end Value

end SchemaRpc
