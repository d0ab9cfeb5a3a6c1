/-
# Values on arrival

What becomes of a value on its way through bytes.  Fields that are not sent get the state that
the reader gives them, fields that the reader does not have are dropped, and everything else
keeps its shape.  The reader's schema decides; the scalars are left to a parameter:

* `normalise`: the reader has the writer's schema, scalars stay as they are,
* `project`: the reader has a schema of its own, integers are retyped.
-/
import SchemaRpc.Proofs.Value.Induction

namespace SchemaRpc

namespace Schema

/-- The state of a field on arrival: as it was sent, by its default, or absent. -/
def Field.fill (f : Field) (state : FieldState) : FieldState :=
  if state.isSent then state
  else
    match f.default with
    | some value => .defaulted value
    | none => .absent

/-- A record on arrival at a struct. -/
def StructType.filled (struct : StructType) (r : Record) : Record :=
  struct.recordOf fun f => f.fill (r.get f.tag)

/-- The record sends every field of the struct that has to be sent. -/
def StructType.Suffices (struct : StructType) (r : Record) : Prop :=
  ∀ f ∈ struct.fields, f.isMandatory → (r.get f.tag).isSent

lemma Field.fill_of_not_isSent {f : Field} {state : FieldState} (h : ¬ state.isSent) :
    f.fill state = f.fill .absent := by
  unfold fill
  rw [if_neg h, if_neg (by decide)]

@[simp] lemma Field.isSent_fill (f : Field) (state : FieldState) :
    (f.fill state).isSent = state.isSent := by
  unfold fill
  split
  · rfl
  · rename_i h
    rw [Bool.not_eq_true] at h
    cases f.default <;> exact h.symm

/-- A field holds a value as sent if it was sent with it. -/
lemma Field.fill_eq_present_iff {f : Field} {state : FieldState} {x : Value} :
    f.fill state = .present x ↔ state = .present x := by
  cases state with
  | present y => exact Iff.rfl
  | null => exact Iff.rfl
  | defaulted d | absent => cases hd : f.default <;> simp [fill, FieldState.isSent, hd]

/-- The values that a filled record sends are those that its fields are filled from. -/
lemma StructType.Ascends.get_recordOf_fill_eq_present_iff {struct : StructType} (h : struct.Ascends)
    {state : Field → FieldState} {t : Tag} {x : Value} :
    (struct.recordOf fun f => f.fill (state f)).get t = .present x ↔
      ∃ f ∈ struct.fields, f.tag = t ∧ state f = .present x := by
  constructor
  · intro hx
    cases ht : struct.fieldByTag? t with
    | none =>
      rw [h.get_recordOf_of_none _ ht] at hx
      cases hx
    | some f =>
      obtain ⟨hf, rfl⟩ := mem_of_fieldByTag? ht
      rw [h.get_recordOf _ hf] at hx
      exact ⟨f, hf, rfl, Field.fill_eq_present_iff.mp hx⟩
  · rintro ⟨f, hf, rfl, hx⟩
    rw [h.get_recordOf _ hf]
    exact Field.fill_eq_present_iff.mpr hx

/-- A state of one field arrives at this field only. -/
lemma StructType.Ascends.filled_set {struct : StructType} (h : struct.Ascends) (r : Record)
    {f : Field} (hf : f ∈ struct.fields) (state : FieldState) :
    struct.filled (r.set f.tag state) = (struct.filled r).set f.tag (f.fill state) := by
  refine Record.ext fun t => ?_
  rw [Record.get_set]
  cases ht : struct.fieldByTag? t with
  | none =>
    have hne : t ≠ f.tag := fun heq => h.fieldByTag?_eq_none_iff.mp ht f hf heq.symm
    rw [if_neg hne, filled, filled, h.get_recordOf_of_none _ ht, h.get_recordOf_of_none _ ht]
  | some g =>
    obtain ⟨hg, rfl⟩ := mem_of_fieldByTag? ht
    rw [filled, filled, h.get_recordOf _ hg, h.get_recordOf _ hg, Record.get_set]
    split
    · rename_i htag
      rw [h.eq_of_tag_eq hg hf htag]
    · rfl

end Schema

/-- Change the value that is sent. -/
def FieldState.mapPresent (g : Value → Value) : FieldState → FieldState
  | .present value => .present (g value)
  | .null => .null
  | .defaulted value => .defaulted value
  | .absent => .absent

lemma FieldState.mapPresent_eq_present_iff {g : Value → Value} {state : FieldState} {y : Value} :
    state.mapPresent g = .present y ↔ ∃ x, state = .present x ∧ g x = y := by
  cases state <;> simp [mapPresent]

@[simp] lemma FieldState.isSent_mapPresent (g : Value → Value) (state : FieldState) :
    (state.mapPresent g).isSent = state.isSent := by
  cases state <;> rfl

namespace Value

mutual

/-- A value on arrival at a type of the reader's schema. -/
def arrive (s : Schema) (scalar : TypeRef → Value → Value) (type : TypeRef) : Value → Value
  | .bool b => scalar type (.bool b)
  | .int kind n => scalar type (.int kind n)
  | .f32 x => scalar type (.f32 x)
  | .f64 x => scalar type (.f64 x)
  | .string text => scalar type (.string text)
  | .bytes data => scalar type (.bytes data)
  | .enum n => scalar type (.enum n)
  | .union active payload =>
    match type with
    | .union id =>
      match (s.unionType id).variantByTag? active with
      | some v => .union active (payload.arrive s scalar v.type)
      | none => .union active payload
    | _ => .union active payload
  | .struct slots =>
    match type with
    | .struct id =>
      let states := arriveSlots s scalar (s.structType id) slots
      .struct ((s.structType id).recordOf fun f => f.fill ((states.lookup f.tag).getD .absent))
    | _ => .struct slots
  | .array items =>
    match type with
    | .array item => .array (arriveItems s scalar item items)
    | _ => .array items

/-- The states that the fields of a record send. -/
def arriveSlots (s : Schema) (scalar : TypeRef → Value → Value) (struct : Schema.StructType) :
    {floor : Option Tag} → Slots floor → List (Tag × FieldState)
  | _, .nil => []
  | _, .cons tag _ slot more =>
    (tag, arriveSlot s scalar ((struct.fieldByTag? tag).map (·.type)) slot)
      :: arriveSlots s scalar struct more

/-- The state that a field sends, given its type if the struct has the field. -/
def arriveSlot (s : Schema) (scalar : TypeRef → Value → Value) (type : Option TypeRef) :
    Slot Value → FieldState
  | .present value =>
    match type with
    | some type => .present (value.arrive s scalar type)
    | none => .absent
  | .null => .null
  | .defaulted _ => .absent

/-- The items of an array on arrival. -/
def arriveItems (s : Schema) (scalar : TypeRef → Value → Value) (item : TypeRef) :
    List Value → List Value
  | [] => []
  | value :: more => value.arrive s scalar item :: arriveItems s scalar item more

end

/-- An integer as one of the reader's type, with the same number. -/
def retype : TypeRef → Value → Value
  | .prim (.int kind), .int other n =>
    match kind.ofInt? n.val with
    | some m => .int kind m
    | none => .int other n
  | _, value => value

/-- A value with the fields that are not sent in their state on arrival. -/
def normalise (s : Schema) (type : TypeRef) (v : Value) : Value := v.arrive s (fun _ x => x) type

/-- A value as a reader with a schema of its own sees it. -/
def project (s : Schema) (type : TypeRef) (v : Value) : Value := v.arrive s retype type

section

variable (s : Schema) (scalar : TypeRef → Value → Value)

lemma arriveItems_eq_map (item : TypeRef) (items : List Value) :
    arriveItems s scalar item items = items.map (·.arrive s scalar item) := by
  induction items with
  | nil => rw [arriveItems, List.map_nil]
  | cons x items ih => rw [arriveItems, List.map_cons, ih]

lemma arrive_array (item : TypeRef) (items : List Value) :
    (Value.array items).arrive s scalar (.array item) =
      .array (items.map (·.arrive s scalar item)) := by
  rw [arrive, arriveItems_eq_map]

lemma arrive_union {id : Nat} {active : Tag} {v : Schema.Variant}
    (hv : (s.unionType id).variantByTag? active = some v) (payload : Value) :
    (Value.union active payload).arrive s scalar (.union id) =
      .union active (payload.arrive s scalar v.type) := by
  rw [arrive]
  simp only [hv]

lemma lookup_arriveSlots (struct : Schema.StructType) (t : Tag) {floor : Option Tag}
    (slots : Slots floor) : (arriveSlots s scalar struct slots).lookup t =
      (slots.find? t).map (arriveSlot s scalar ((struct.fieldByTag? t).map (·.type))) := by
  induction slots with
  | nil =>
    rw [arriveSlots]
    rfl
  | cons tag above slot more ih =>
    rw [arriveSlots, List.lookup_cons, Ascending.find?_cons]
    by_cases h : t = tag
    · subst h
      rw [beq_self_eq_true, if_pos rfl]
      rfl
    · have hne : (t == tag) = false := by simpa using h
      rw [hne, if_neg h]
      exact ih

lemma arrive_struct {id : Nat} (hascends : (s.structType id).Ascends) (r : Record) :
    (Value.struct r).arrive s scalar (.struct id) = .struct ((s.structType id).recordOf fun f =>
      f.fill ((r.get f.tag).mapPresent (·.arrive s scalar f.type))) := by
  rw [arrive]
  congr 1
  refine Record.ext fun t => ?_
  cases ht : (s.structType id).fieldByTag? t with
  | none => rw [hascends.get_recordOf_of_none _ ht, hascends.get_recordOf_of_none _ ht]
  | some f =>
    obtain ⟨hf, rfl⟩ := Schema.StructType.mem_of_fieldByTag? ht
    rw [hascends.get_recordOf _ hf, hascends.get_recordOf _ hf, lookup_arriveSlots, ht,
      Record.get]
    rcases r.find? f.tag with _ | _ | _ | _
    · rfl
    · simp [arriveSlot, FieldState.ofSlot, FieldState.mapPresent]
    · simp [arriveSlot, FieldState.ofSlot, FieldState.mapPresent]
    · simp [arriveSlot, FieldState.ofSlot, FieldState.mapPresent, Schema.Field.fill,
        FieldState.isSent]

end

end Value

/-- A record with the fields that are not sent in their state on arrival. -/
def Record.normalise (s : Schema) (id : Nat) (r : Record) : Record :=
  (s.structType id).recordOf fun f => f.fill ((r.get f.tag).mapPresent (·.normalise s f.type))

lemma Value.normalise_struct {s : Schema} {id : Nat} (hascends : (s.structType id).Ascends)
    (r : Record) : (Value.struct r).normalise s (.struct id) = .struct (r.normalise s id) :=
  arrive_struct s _ hascends r

end SchemaRpc
