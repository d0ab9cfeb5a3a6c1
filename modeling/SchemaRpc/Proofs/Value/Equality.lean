/-
# Equality of records, field by field

Programs compare records by walking both lists of stored fields at once.  Since absence is not
stored and the tags ascend, this is the same as comparing the states that the two records give each
tag.  Equality as programs see it is not reflexive: a NaN differs from itself, and so does every
value that holds one.

* `Record.ieeeEq_iff` says that equal records are those with equal states,
* `Value.ieeeEq_self_iff` says which values are equal to themselves.
-/
import SchemaRpc.Proofs.Value.Induction
import SchemaRpc.Value.Equality

namespace SchemaRpc

/-- Equality of the states of a field as programs see it. -/
def FieldState.ieeeEq : FieldState → FieldState → Bool
  | .present x, .present y | .defaulted x, .defaulted y => x.ieeeEq y
  | .null, .null | .absent, .absent => true
  | _, _ => false

/-- Equality of records as programs see it. -/
def Record.ieeeEq (r q : Record) : Bool := Value.ieeeEq (.struct r) (.struct q)

namespace Value

lemma slotEq_eq (a b : Slot Value) :
    slotEq a b = (FieldState.ofSlot (some a)).ieeeEq (.ofSlot (some b)) := by
  cases a <;> cases b <;> simp [slotEq, FieldState.ofSlot, FieldState.ieeeEq]

/-- Two lists of stored fields are walked at once. -/
lemma slotsEq_iff_forall₂ {floor floor' : Option Tag} (r : Slots floor) (q : Slots floor') :
    slotsEq r q = true ↔
      List.Forall₂ (fun x y => x.1 = y.1 ∧ slotEq x.2 y.2 = true) r.toList q.toList := by
  induction r generalizing floor' with
  | nil => cases q <;> simp [slotsEq]
  | cons s _ a r ih =>
    cases q with
    | nil => simp [slotsEq]
    | cons t _ b q =>
      rw [slotsEq, Ascending.toList_cons, Ascending.toList_cons, List.forall₂_cons, ← ih,
        Bool.and_eq_true, Bool.and_eq_true, beq_iff_eq]

lemma itemsEq_self_iff (items : List Value) :
    itemsEq items items = true ↔ ∀ x ∈ items, x.ieeeEq x = true := by
  induction items with
  | nil => simp [itemsEq]
  | cons x items ih => rw [itemsEq, Bool.and_eq_true, ih, List.forall_mem_cons]

end Value

/-- Equal records are those that give each tag equal states. -/
theorem Record.ieeeEq_iff (r q : Record) :
    r.ieeeEq q = true ↔ ∀ t, (r.get t).ieeeEq (q.get t) = true := by
  rw [ieeeEq, Value.ieeeEq, Value.slotsEq_iff_forall₂]
  simp only [Value.slotEq_eq, get]
  exact (Ascending.forall_find?_iff
    (R := fun a b => (FieldState.ofSlot a).ieeeEq (.ofSlot b) = true) rfl
    (fun a => by cases a <;> exact Bool.false_ne_true)
    (fun b => by cases b <;> exact Bool.false_ne_true) r q).symm

/-- The value holds a NaN, at any depth, be it sent or filled in. -/
inductive Value.HoldsNaN : Value → Prop where
  | f32 {x : Binary32} (h : x.isNaN) : HoldsNaN (.f32 x)
  | f64 {x : Binary64} (h : x.isNaN) : HoldsNaN (.f64 x)
  | union {active : Tag} {payload : Value} (h : HoldsNaN payload) :
    HoldsNaN (.union active payload)
  | struct {r : Record} {t : Tag} {x : Value} (hx : (r.get t).value? = some x) (h : HoldsNaN x) :
    HoldsNaN (.struct r)
  | array {items : List Value} {x : Value} (hx : x ∈ items) (h : HoldsNaN x) :
    HoldsNaN (.array items)

namespace Value

lemma holdsNaN_f32_iff {x : Binary32} : (Value.f32 x).HoldsNaN ↔ x.isNaN = true :=
  ⟨fun | .f32 h => h, .f32⟩

lemma holdsNaN_f64_iff {x : Binary64} : (Value.f64 x).HoldsNaN ↔ x.isNaN = true :=
  ⟨fun | .f64 h => h, .f64⟩

lemma holdsNaN_union_iff {active : Tag} {payload : Value} :
    (Value.union active payload).HoldsNaN ↔ payload.HoldsNaN :=
  ⟨fun | .union h => h, .union⟩

lemma holdsNaN_struct_iff {r : Record} :
    (Value.struct r).HoldsNaN ↔ ∃ t x, (r.get t).value? = some x ∧ x.HoldsNaN :=
  ⟨fun | .struct hx h => ⟨_, _, hx, h⟩, fun ⟨_, _, hx, h⟩ => .struct hx h⟩

lemma holdsNaN_array_iff {items : List Value} :
    (Value.array items).HoldsNaN ↔ ∃ x ∈ items, x.HoldsNaN :=
  ⟨fun | .array hx h => ⟨_, hx, h⟩, fun ⟨_, hx, h⟩ => .array hx h⟩

end Value

/-- A state is equal to itself if its value is, where it has one. -/
lemma FieldState.ieeeEq_self_iff (state : FieldState) :
    state.ieeeEq state = true ↔ ∀ x, state.value? = some x → x.ieeeEq x = true := by
  cases state <;> simp [ieeeEq, value?]

/-- The values that are equal to themselves are those without a NaN. -/
theorem Value.ieeeEq_self_iff (v : Value) : v.ieeeEq v = true ↔ ¬ v.HoldsNaN := by
  induction v with
  | bool b | int kind n | string text | bytes bytes | enum n =>
    refine iff_of_true (by simp [ieeeEq]) ?_
    rintro ⟨⟩
  | f32 x => simp [holdsNaN_f32_iff, ieeeEq, Binary32.ieeeEq]
  | f64 x => simp [holdsNaN_f64_iff, ieeeEq, Binary64.ieeeEq]
  | union active payload ih => simp [holdsNaN_union_iff, ieeeEq, ih]
  | struct r ih =>
    rw [← Record.ieeeEq, Record.ieeeEq_iff, holdsNaN_struct_iff]
    simp only [FieldState.ieeeEq_self_iff, not_exists, not_and]
    exact forall₃_congr ih
  | array items ih =>
    rw [ieeeEq, itemsEq_self_iff, holdsNaN_array_iff]
    simp only [not_exists, not_and]
    exact forall₂_congr ih

/-- The records that are equal to themselves are those without a NaN in a field. -/
lemma Record.ieeeEq_self_iff (r : Record) :
    r.ieeeEq r = true ↔ ∀ t x, (r.get t).value? = some x → ¬ x.HoldsNaN := by
  rw [ieeeEq, Value.ieeeEq_self_iff, Value.holdsNaN_struct_iff]
  simp only [not_exists, not_and]

end SchemaRpc
