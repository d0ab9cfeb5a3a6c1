/-
# Induction on the nesting of values

Values hold values as payloads of unions, as items of arrays, and in the fields of records,
sent or filled in.  The induction principle hands out the hypothesis for exactly these, the
values in a record by the tags that find them, so that no proof has to walk through the entries
of a record.
-/
import Mathlib.Tactic.Common
import SchemaRpc.Proofs.Value.Record

namespace SchemaRpc

/-- A property of values that passes from the parts of a value to the value. -/
structure PassesUp (motive : Value → Prop) : Prop where
  bool (b : Bool) : motive (.bool b)
  int (kind : IntKind) (n : kind.Ranged) : motive (.int kind n)
  f32 (x : Binary32) : motive (.f32 x)
  f64 (x : Binary64) : motive (.f64 x)
  string (text : String) : motive (.string text)
  bytes (bytes : Bytes) : motive (.bytes bytes)
  enum (n : IntKind.i32.Ranged) : motive (.enum n)
  union (active : Tag) (payload : Value) (ih : motive payload) : motive (.union active payload)
  struct (r : Record) (ih : ∀ t x, (r.get t).value? = some x → motive x) : motive (.struct r)
  array (items : List Value) (ih : ∀ x ∈ items, motive x) : motive (.array items)

namespace PassesUp

variable {motive : Value → Prop}

mutual

theorem value (h : PassesUp motive) : (v : Value) → motive v
  | .bool b => h.bool b
  | .int kind n => h.int kind n
  | .f32 x => h.f32 x
  | .f64 x => h.f64 x
  | .string text => h.string text
  | .bytes b => h.bytes b
  | .enum n => h.enum n
  | .union active payload => h.union active payload (value h payload)
  | .struct slots => h.struct slots (slots_value h slots)
  | .array items => h.array items (mem_value h items)

theorem slots_value (h : PassesUp motive) : {floor : Option Tag} → (slots : Slots floor) →
    ∀ t x, (FieldState.ofSlot (slots.find? t)).value? = some x → motive x
  | _, .nil => fun _ _ hx => nomatch hx
  | _, .cons key _ slot more => by
    intro t x hx
    rw [Ascending.find?_cons] at hx
    split at hx
    · exact slot_value h slot x hx
    · exact slots_value h more t x hx

theorem slot_value (h : PassesUp motive) : (slot : Slot Value) →
    ∀ x, (FieldState.ofSlot (some slot)).value? = some x → motive x
  | .present y | .defaulted y => by
    intro x hx
    obtain rfl : y = x := Option.some.inj hx
    exact value h y
  | .null => fun _ hx => nomatch hx

theorem mem_value (h : PassesUp motive) : (items : List Value) → ∀ x ∈ items, motive x
  | [] => fun _ hx => nomatch hx
  | y :: more => by
    intro x hx
    rcases List.mem_cons.mp hx with hx | hx
    · exact hx ▸ value h y
    · exact mem_value h more x hx

end

end PassesUp

/-- Induction on the nesting of a value. -/
@[elab_as_elim, induction_eliminator]
theorem Value.nesting_induction {motive : Value → Prop}
    (bool : ∀ b, motive (.bool b))
    (int : ∀ kind n, motive (.int kind n))
    (f32 : ∀ x, motive (.f32 x))
    (f64 : ∀ x, motive (.f64 x))
    (string : ∀ text, motive (.string text))
    (bytes : ∀ bytes, motive (.bytes bytes))
    (enum : ∀ n, motive (.enum n))
    (union : ∀ active payload, motive payload → motive (.union active payload))
    (struct : ∀ r : Record,
      (∀ t x, (r.get t).value? = some x → motive x) → motive (.struct r))
    (array : ∀ items, (∀ x ∈ items, motive x) → motive (.array items)) (v : Value) : motive v :=
  PassesUp.value ⟨bool, int, f32, f64, string, bytes, enum, union, struct, array⟩ v

end SchemaRpc
