/-
# How large values are

Sums over a value and all values inside of it.  As for the depth, what lies inside a field counts
only if the field is sent.
-/
import Mathlib.Algebra.GroupWithZero.Nat
import SchemaRpc.Proofs.Value.Record
import SchemaRpc.Utf8

namespace SchemaRpc

namespace Value

mutual

/-- The sum of the weights of a value and of the values inside of it that are sent. -/
def total (weight : Value → Nat) : Value → Nat
  | .bool b => weight (.bool b)
  | .int kind n => weight (.int kind n)
  | .f32 x => weight (.f32 x)
  | .f64 x => weight (.f64 x)
  | .string text => weight (.string text)
  | .bytes data => weight (.bytes data)
  | .enum n => weight (.enum n)
  | .union active payload => weight (.union active payload) + payload.total weight
  | .struct slots => weight (.struct slots) + slotsTotal weight slots
  | .array items => weight (.array items) + itemsTotal weight items

/-- The sum over the fields of a record. -/
def slotsTotal (weight : Value → Nat) : {floor : Option Tag} → Slots floor → Nat
  | _, .nil => 0
  | _, .cons _ _ slot more => slotTotal weight slot + slotsTotal weight more

/-- The sum over the value that is sent in a field. -/
def slotTotal (weight : Value → Nat) : Slot Value → Nat
  | .present value => value.total weight
  | .null | .defaulted _ => 0

/-- The sum over the items of an array. -/
def itemsTotal (weight : Value → Nat) : List Value → Nat
  | [] => 0
  | value :: more => value.total weight + itemsTotal weight more

end

/-- The number of values in a value, itself included, those that are not sent left out. -/
def nodes (v : Value) : Nat := v.total fun _ => 1

/-- The number of bytes of a text or byte string. -/
def stringLength : Value → Nat
  | .string text => (Utf8.encode text).length
  | .bytes data => data.length
  | _ => 0

/-- The number of bytes of the texts and byte strings in a value, those that are not sent left
out. -/
def stringBytes (v : Value) : Nat := v.total stringLength

section

variable (weight : Value → Nat)

lemma total_union (active : Tag) (payload : Value) : (Value.union active payload).total weight =
    weight (.union active payload) + payload.total weight := by
  rw [total]

lemma total_struct (r : Record) :
    (Value.struct r).total weight = weight (.struct r) + slotsTotal weight r := by
  rw [total]

lemma total_array (items : List Value) : (Value.array items).total weight =
    weight (.array items) + (items.map (·.total weight)).sum := by
  have hitems : itemsTotal weight items = (items.map (·.total weight)).sum := by
    induction items with
    | nil => rw [itemsTotal, List.map_nil, List.sum_nil]
    | cons x items ih => rw [itemsTotal, ih, List.map_cons, List.sum_cons]
  rw [total, hitems]

lemma slotsTotal_eq_sum {floor : Option Tag} (slots : Slots floor) :
    slotsTotal weight slots = (slots.toList.map fun e => slotTotal weight e.2).sum := by
  induction slots with
  | nil => rw [slotsTotal, Ascending.toList_nil, List.map_nil, List.sum_nil]
  | cons key above slot more ih =>
    rw [slotsTotal, ih, Ascending.toList_cons, List.map_cons, List.sum_cons]

end

end Value

/-- The sum over the value that is sent. -/
def FieldState.total (weight : Value → Nat) : FieldState → Nat
  | .present value => value.total weight
  | .null | .defaulted _ | .absent => 0

@[simp] lemma FieldState.total_present (weight : Value → Nat) (value : Value) :
    (FieldState.present value).total weight = value.total weight := rfl

@[simp] lemma FieldState.total_null (weight : Value → Nat) : null.total weight = 0 := rfl

namespace Record

lemma mem_toStates {r : Record} {sent : Tag × FieldState} (h : sent ∈ r.toStates) :
    r.get sent.1 = sent.2 :=
  ((mem_toStates_iff r sent.1 sent.2).mp h).1

lemma nodup_toStates (r : Record) : r.toStates.Nodup :=
  (pairwise_toStates r).imp fun hlt heq => hlt.ne (congrArg Prod.fst heq)

/-- The sum over a record is that over the states of its fields. -/
lemma slotsTotal_eq_sum_toStates (weight : Value → Nat) (r : Record) :
    Value.slotsTotal weight r = (r.toStates.map fun sent => sent.2.total weight).sum := by
  rw [Value.slotsTotal_eq_sum, toStates, List.map_map]
  refine congrArg List.sum (List.map_congr_left fun e _ => ?_)
  obtain ⟨t, slot⟩ := e
  cases slot <;> rfl

end Record

end SchemaRpc
