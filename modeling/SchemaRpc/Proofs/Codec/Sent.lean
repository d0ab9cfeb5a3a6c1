/-
# What is sent

A value is written as the tree of its members that are sent: the fields that are present or null,
the active variants, the items of arrays.  `Value.sent` lists them without a schema.  The schema
decides whether a value can be encoded, and nothing about the bytes.

* `recordBytes_eq_sent`: a struct is written by walking the fields of the schema, of which the
  record may store only some; both walks are in ascending order of the tags, so they agree.
* `encode_eq_sent`: the bytes of a value are those of the members that it sends.
* `encode_bytes_unique`: under two schemas that can both encode a value, the bytes are the same.
-/
import Mathlib.Data.List.Sort
import SchemaRpc.Proofs.Codec.Encodable
import SchemaRpc.Proofs.Codec.Versions
import SchemaRpc.Proofs.Wire.Items

namespace SchemaRpc

open Wire

/-- The integers of every type are integers of eight bytes. -/
lemma IntKind.Ranged.wide {kind : IntKind} (n : kind.Ranged) :
    IntKind.i64.least ≤ n.val ∧ n.val ≤ IntKind.u64.greatest := by
  have hbounds : IntKind.i64.least ≤ kind.least ∧ kind.greatest ≤ IntKind.u64.greatest := by
    cases kind <;> decide
  exact ⟨hbounds.1.trans n.holds.1, n.holds.2.trans hbounds.2⟩

namespace Value

mutual

/-- What a value is written as behind a header. -/
def item : Value → Item
  | .bool b => .int ⟨if b then 1 else 0, by cases b <;> decide⟩
  | .int _ n => .int ⟨n.val, n.wide⟩
  | .f32 x => .float32 x
  | .f64 x => .float64 x
  | .string text => .bytes (Utf8.encode text)
  | .bytes data => .bytes data
  | .enum n => .int ⟨n.val, n.wide⟩
  | .union active payload => .block [(active, payload.item)]
  | .struct slots => .block (slotsSent slots)
  | .array items => .repeated (itemsSent items)

/-- The members that the fields of a record send. -/
def slotsSent : {floor : Option Tag} → Slots floor → List (Tag × Item)
  | _, .nil => []
  | _, .cons tag _ slot more => slotSent tag slot ++ slotsSent more

/-- The member that a stored field sends, if it sends one. -/
def slotSent (tag : Tag) : Slot Value → List (Tag × Item)
  | .present value => [(tag, value.item)]
  | .null => [(tag, .null)]
  | .defaulted _ => []

/-- What the items of an array are written as. -/
def itemsSent : List Value → List Item
  | [] => []
  | value :: more => value.item :: itemsSent more

end

/-- The members that a value sends when it stands by itself. -/
def sent : Value → List (Tag × Item)
  | .struct r => slotsSent r
  | .union active payload => [(active, payload.item)]
  | value => [(.zero, value.item)]

end Value

/-- The member that a field in a state sends, if it sends one. -/
def FieldState.sent (tag : Tag) : FieldState → List (Tag × Item)
  | .present value => [(tag, value.item)]
  | .null => [(tag, .null)]
  | .defaulted _ | .absent => []

namespace Value

lemma itemsSent_eq_map (items : List Value) : itemsSent items = items.map item := by
  induction items with
  | nil => rfl
  | cons x items ih => rw [itemsSent, List.map_cons, ih]

lemma membersBytes_slotsSent {floor : Option Tag} (slots : Slots floor) :
    membersBytes (slotsSent slots) =
      slots.toList.flatMap fun e => membersBytes (slotSent e.1 e.2) := by
  induction slots with
  | nil => rfl
  | cons tag above slot more ih =>
    rw [slotsSent, membersBytes_append, ih, Ascending.toList_cons, List.flatMap_cons]

/-- The members of a record tag by tag. -/
lemma membersBytes_record (r : Record) : membersBytes (slotsSent r) =
    r.tags.flatMap fun t => membersBytes ((r.get t).sent t) := by
  rw [membersBytes_slotsSent, Record.tags, Ascending.keys, List.flatMap_map]
  refine List.flatMap_congr fun e he => ?_
  obtain ⟨t, slot⟩ := e
  rw [Record.get, (Ascending.mem_toList_iff t slot r).mp he]
  cases slot <;> rfl

end Value

namespace Codec

/-- Entries that give nothing can be left out. -/
lemma flatMap_filter {α β : Type} {p : α → Bool} {g : α → List β}
    (hothers : ∀ a, ¬ p a → g a = []) (l : List α) : (l.filter p).flatMap g = l.flatMap g := by
  induction l with
  | nil => rfl
  | cons a l ih =>
    by_cases ha : p a
    · rw [List.filter_cons_of_pos ha, List.flatMap_cons, List.flatMap_cons, ih]
    · rw [List.filter_cons_of_neg ha, List.flatMap_cons, hothers a ha, ih, List.nil_append]

/-- A strictly ascending list within another one is what its members leave of the other one. -/
lemma filter_mem_of_ascending {α : Type} [LinearOrder α] {few many : List α}
    (hfew : few.Pairwise (· < ·)) (hmany : many.Pairwise (· < ·)) (hsub : ∀ a ∈ few, a ∈ many) :
    many.filter (· ∈ few) = few := by
  refine (hmany.filter _).eq_of_mem_iff hfew fun a => ?_
  rw [List.mem_filter, decide_eq_true_eq]
  exact and_iff_right_of_imp (hsub a)

section

variable {s : Schema} {type : TypeRef} {v : Value}

lemma sentBytes_eq {f : Schema.Field} {part : Piece} {state : FieldState}
    (hpart : ∀ x, state = .present x → part = x.item.piece) :
    sentBytes f part state = membersBytes (state.sent f.tag) := by
  cases state with
  | present x =>
    rw [sentBytes, hpart x rfl, FieldState.sent, membersBytes_singleton]
  | null =>
    rw [FieldState.sent, membersBytes_singleton]
    rfl
  | defaulted d | absent => rfl

/-- Walking the fields of the struct comes across the members that the record sends. -/
lemma recordBytes_eq_sent {struct : Schema.StructType} (hascends : struct.Ascends) {r : Record}
    (hr : struct.Sendable r) {part : Schema.Field → Piece}
    (hpart : ∀ f ∈ struct.fields, ∀ x, r.get f.tag = .present x → part f = x.item.piece) :
    recordBytes struct part r = membersBytes (Value.slotsSent r) := by
  have hdeclared (t : Tag) (ht : t ∈ r.tags) : t ∈ struct.fields.map (·.tag) := by
    obtain ⟨f, hf⟩ := Option.isSome_iff_exists.mp (hr.declared t ht)
    obtain ⟨hmem, rfl⟩ := Schema.StructType.mem_of_fieldByTag? hf
    exact List.mem_map_of_mem hmem
  have hothers (t : Tag) (ht : ¬ (decide (t ∈ r.tags))) : membersBytes ((r.get t).sent t) = [] := by
    rw [decide_eq_true_eq, Record.mem_tags_iff, not_not] at ht
    rw [ht]
    rfl
  have htags : (struct.fields.map (·.tag)).filter (· ∈ r.tags) = r.tags :=
    filter_mem_of_ascending (Ascending.pairwise_keys r) (List.pairwise_map.mpr hascends) hdeclared
  calc recordBytes struct part r
      = struct.fields.flatMap fun f => membersBytes ((r.get f.tag).sent f.tag) :=
        List.flatMap_congr fun f hf => sentBytes_eq (hpart f hf)
    _ = (struct.fields.map (·.tag)).flatMap fun t => membersBytes ((r.get t).sent t) := by
        rw [List.flatMap_map]
    _ = r.tags.flatMap fun t => membersBytes ((r.get t).sent t) := by
        rw [← flatMap_filter hothers, htags]
    _ = membersBytes (Value.slotsSent r) := (Value.membersBytes_record r).symm

/-- What a value is written as at a type does not depend on the type. -/
theorem Writes.eq_piece (hs : s.Ascends) {p : Piece} (h : Writes s type v p) :
    p = v.item.piece := by
  induction h with
  | bool | int | f32 | f64 | string | bytes | enum => rfl
  | @union _ active payload _ _ _ _ _ ih =>
    rw [ih, Value.item, Item.piece, membersBytes_singleton]
  | struct hr h hlen ih => rw [recordBytes_eq_sent (hs.structType _) hr ih, Value.item, Item.piece]
  | @array _ items part _ _ ih =>
    have hitems : items.flatMap (fun x => (part x).bytes .zero) =
        itemsBytes (items.map Value.item) := by
      rw [itemsBytes_eq_flatMap, List.flatMap_map]
      exact List.flatMap_congr fun x hx => by rw [ih x hx]
    rw [hitems, Value.item, Item.piece, Value.itemsSent_eq_map, List.length_map]

/-- A payload is the members that are sent. -/
theorem WritesPayload.eq_sent (hs : s.Ascends) {bytes : Bytes} (h : WritesPayload s type v bytes) :
    bytes = membersBytes v.sent := by
  cases h with
  | struct hr h =>
    exact recordBytes_eq_sent (hs.structType _) hr fun f hf x hx => (h f hf x hx).eq_piece hs
  | @union _ active payload _ _ _ h =>
    rw [h.eq_piece hs, Value.sent, membersBytes_singleton]
  | @member _ _ part hstruct hunion h =>
    have hpart := h.eq_piece hs
    cases h with
    | struct => exact absurd rfl (hstruct _)
    | union => exact absurd rfl (hunion _)
    | bool | int | f32 | f64 | string | bytes | enum | array =>
      rw [hpart, Value.sent, membersBytes_singleton]
      all_goals exact nofun

end

/-! ## Two schemas -/

/-- Two types are the same as far as a value goes: whatever the value sends in a struct, and every
variant that it has active, both declare under the tag, and for what is inside of it with types
that are again the same.  Names, other fields, defaults and positions do not matter. -/
inductive Corresponds (s s' : Schema) : TypeRef → TypeRef → Value → Prop where
  | prim (p : Primitive) (v : Value) : Corresponds s s' (.prim p) (.prim p) v
  | enum (i j : Nat) (n : IntKind.i32.Ranged) : Corresponds s s' (.enum i) (.enum j) (.enum n)
  | union {i j : Nat} {active : Tag} {u u' : Schema.Variant} {payload : Value}
    (hu : (s.unionType i).variantByTag? active = some u)
    (hu' : (s'.unionType j).variantByTag? active = some u')
    (h : Corresponds s s' u.type u'.type payload) :
    Corresponds s s' (.union i) (.union j) (.union active payload)
  | struct {i j : Nat} {r : Record}
    (declared : ∀ t, (r.get t).isSent → ((s.structType i).fieldByTag? t).isSome ∧
      ((s'.structType j).fieldByTag? t).isSome)
    (h : ∀ t x f f', r.get t = .present x → (s.structType i).fieldByTag? t = some f →
      (s'.structType j).fieldByTag? t = some f' → Corresponds s s' f.type f'.type x) :
    Corresponds s s' (.struct i) (.struct j) (.struct r)
  | array {a b : TypeRef} {items : List Value} (h : ∀ x ∈ items, Corresponds s s' a b x) :
    Corresponds s s' (.array a) (.array b) (.array items)

section

variable {s s' : Schema} {a b : TypeRef} {v : Value}

lemma isSome_of_isSent {struct : Schema.StructType} {r : Record} (hr : struct.Sendable r) {t : Tag}
    (ht : (r.get t).isSent) : (struct.fieldByTag? t).isSome := by
  refine hr.declared t ((Record.mem_tags_iff r t).mpr fun habsent => ?_)
  rw [habsent] at ht
  cases ht

/-- Types at which one value can be encoded are the same as far as it goes. -/
theorem Encodable.corresponds (h : Encodable s a v) (h' : Encodable s' b v) :
    Corresponds s s' a b v := by
  induction h generalizing b with
  | bool | int | f32 | f64 | string | bytes =>
    cases h'
    exact .prim _ _
  | enum =>
    cases h'
    exact .enum _ _ _
  | union hv _ ih =>
    cases h' with
    | union hv' h' => exact .union hv hv' (ih h')
  | struct hr h ih =>
    cases h' with
    | struct hr' h' =>
      refine .struct (fun t ht => ⟨isSome_of_isSent hr ht, isSome_of_isSent hr' ht⟩)
        fun t x f f' hx hf hf' => ?_
      obtain ⟨hmem, rfl⟩ := Schema.StructType.mem_of_fieldByTag? hf
      obtain ⟨hmem', htag⟩ := Schema.StructType.mem_of_fieldByTag? hf'
      exact ih f hmem x hx (h' f' hmem' x (htag ▸ hx))
  | array h ih =>
    cases h' with
    | array h' => exact .array fun x hx => ih x hx (h' x hx)

end

/-- **A payload is what is sent.**  The bytes of an encoded value are those of the members that it
sends, which are told without the schema. -/
theorem encode_eq_sent {p : Package} {s : Schema} (hp : Schema.resolve p = .ok s)
    {type : TypeRef} {v : Value} {bytes : Bytes} (h : encode s v type = .ok bytes) :
    bytes = membersBytes v.sent := by
  have hs := Schema.ascends_of_resolve hp
  exact ((encode_eq_ok_iff hs).mp h).eq_sent hs

/-- What is sent is read back from a payload without the schema. -/
theorem readsMembers_encode {p : Package} {s : Schema} (hp : Schema.resolve p = .ok s)
    {type : TypeRef} {v : Value} {bytes : Bytes} (h : encode s v type = .ok bytes)
    (hsize : bytes.length < lengthLimit) : ReadsMembers v.sent (.ofBytes bytes) := by
  obtain rfl := encode_eq_sent hp h
  exact ReadsMembers.of_rest v.sent hsize rfl

/-- **Bytes depend only on what is sent.**  When a value can be encoded under two schemas, at
types of either, then the types are the same as far as the value goes, and its bytes are the
same. -/
theorem encode_bytes_unique {p p' : Package} {s s' : Schema} (hp : Schema.resolve p = .ok s)
    (hp' : Schema.resolve p' = .ok s') {a b : TypeRef} {v : Value} {bytes bytes' : Bytes}
    (h : encode s v a = .ok bytes) (h' : encode s' v b = .ok bytes') :
    Corresponds s s' a b v ∧ bytes = bytes' := by
  have hs := (encode_eq_ok_iff (Schema.ascends_of_resolve hp)).mp h
  have hs' := (encode_eq_ok_iff (Schema.ascends_of_resolve hp')).mp h'
  refine ⟨hs.encodable.corresponds hs'.encodable, ?_⟩
  rw [encode_eq_sent hp h, encode_eq_sent hp' h']

/-- Two items, one with a count that is not sent. -/
def countedItems : Value :=
  .array [Schema.parcelItem "a" (.defaulted (.int .u8 ⟨7, by decide⟩)),
    Schema.parcelItem "b" .absent]

/-- The bytes of the items, without the count. -/
def countedItemsBytes : Bytes :=
  [224, 2, 0, 0, 0, 64, 4, 0, 0, 0, 1, 2, 97, 0, 64, 4, 0, 0, 0, 1, 2, 98, 0]

/-- The items have the same bytes in the later package, where items stand at another position,
counts are of another type, and there may be notes. -/
theorem encode_bytes_unique_items :
    encode Schema.parcelsSchema countedItems (.array (.struct 0)) = .ok countedItemsBytes ∧
      encode laterSchema countedItems (.array (.struct 1)) = .ok countedItemsBytes ∧
      Corresponds Schema.parcelsSchema laterSchema (.array (.struct 0)) (.array (.struct 1))
        countedItems := by
  have h : encode Schema.parcelsSchema countedItems (.array (.struct 0)) =
      .ok countedItemsBytes := by rfl
  have h' : encode laterSchema countedItems (.array (.struct 1)) = .ok countedItemsBytes := by rfl
  exact ⟨h, h', (encode_bytes_unique Schema.resolve_parcels resolve_laterParcels h h').1⟩

end Codec

end SchemaRpc
