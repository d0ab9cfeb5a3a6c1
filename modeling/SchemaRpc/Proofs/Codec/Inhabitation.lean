/-
# Every type has a value

No type of a schema contains itself by value, so containment is well-founded, and along it every
type gets a value that meets all that encoding checks: a struct sends the fields that it has to
send and no others, a union its first variant, an enum its first label, and an array is empty.

* `byValue_induction` is induction along containment, over the structs and unions of a schema,
* `exists_encodable_node` gives a struct or union its value from values of what it contains,
* `Encodable.refuses` says that only a length can keep such a value from being encoded.
-/
import Mathlib.Order.WellFoundedSet
import SchemaRpc.Proofs.Codec.Acceptance
import SchemaRpc.Proofs.Schema.Acyclicity
import SchemaRpc.Proofs.Schema.WellFormed

namespace SchemaRpc

/-! ## Containment is well-founded -/

namespace Schema

/-- The record that sends the fields of a struct that have to be sent, and no others. -/
def StructType.leastRecord (struct : StructType) (value : Field → Value) : Record :=
  struct.recordOf fun f => if f.isMandatory then .present (value f) else .absent

/-- The struct or union is one of the schema. -/
lemma mem_nodes_of_inRange {s : Schema} {node : Node} (h : s.InRange node.type) :
    node ∈ nodes s.structs s.unions := by
  cases node with
  | struct id => exact List.mem_append_left _ (List.mem_map_of_mem (List.mem_range.mpr h))
  | union id => exact List.mem_append_right _ (List.mem_map_of_mem (List.mem_range.mpr h))

/-- What is proved of a struct or union from all that it contains by value holds of every one. -/
theorem byValue_induction {structs : List StructType} {unions : List UnionType}
    (hacyclic : ∀ node, ¬ Relation.TransGen (ByValue structs unions) node node)
    {motive : Node → Prop}
    (step : ∀ node, (∀ inner ∈ nodes structs unions, ByValue structs unions node inner →
      motive inner) → motive node) {node : Node} (hnode : node ∈ nodes structs unions) :
    motive node := by
  let within (inner outer : Node) : Prop := Relation.TransGen (ByValue structs unions) outer inner
  have : Std.Irrefl within := ⟨hacyclic⟩
  have : IsTrans Node within := ⟨fun _ _ _ hab hbc => hbc.trans hab⟩
  have : IsStrictOrder Node within := {}
  -- containment through any number of types is a strict order on finitely many of them
  have hwf : {n | n ∈ nodes structs unions}.WellFoundedOn within :=
    (List.finite_toSet (nodes structs unions)).wellFoundedOn
  refine hwf.induction hnode fun outer _ ih => step outer fun inner hinner hedge => ?_
  exact ih inner hinner (.single hedge)

end Schema

namespace Codec

open Wire

variable {s : Schema} {type : TypeRef} {v : Value}

/-! ## Values along containment -/

/-- Every type has a value if every struct and union of the schema that it is has one. -/
lemma exists_encodable_of_node (henums : ∀ e ∈ s.enums, e.labels ≠ []) (htype : s.InRange type)
    (hnode : ∀ node : Schema.Node, type = node.type → ∃ v, Encodable s type v) :
    ∃ v, Encodable s type v := by
  cases type with
  | prim p =>
    cases p with
    | bool => exact ⟨_, .bool false⟩
    | int k => exact ⟨_, .int k ⟨0, by cases k <;> decide⟩⟩
    | f32 => exact ⟨_, .f32 ⟨0⟩⟩
    | f64 => exact ⟨_, .f64 ⟨0⟩⟩
    | string => exact ⟨_, .string ""⟩
    | bytes => exact ⟨_, .bytes []⟩
  | enum id =>
    have he : s.enums[id]? = some s.enums[id] := List.getElem?_eq_getElem htype
    have hlabels : (s.enumType id).labels ≠ [] := by
      rw [Schema.enumType, he]
      exact henums _ (List.getElem_mem htype)
    obtain ⟨l, hl⟩ := List.exists_mem_of_ne_nil _ hlabels
    exact ⟨_, .enum (List.any_eq_true.mpr ⟨l, hl, decide_eq_true rfl⟩)⟩
  | array item => exact ⟨_, .array (List.forall_mem_nil _)⟩
  | struct id => exact hnode (.struct id) rfl
  | union id => exact hnode (.union id) rfl

section

variable (hs : s.Ascends)

include hs

/-- A struct has a value if the types of the fields that have to be sent have one. -/
lemma exists_encodable_struct {id : Nat}
    (hfields : ∀ f ∈ (s.structType id).fields, f.isMandatory → ∃ v, Encodable s f.type v) :
    ∃ v, Encodable s (.struct id) v := by
  have hascends := hs.structType id
  have : Nonempty Value := ⟨.bool false⟩
  choose! value hvalue using hfields
  have hget (f) (hf : f ∈ (s.structType id).fields) :
      ((s.structType id).leastRecord value).get f.tag =
        if f.isMandatory then .present (value f) else .absent :=
    hascends.get_recordOf _ hf
  refine ⟨.struct ((s.structType id).leastRecord value), .struct ⟨?_, ?_, ?_⟩ ?_⟩
  · intro t ht
    rw [Option.isSome_iff_ne_none]
    intro hnone
    exact (Record.mem_tags_iff _ t).mp ht (hascends.get_recordOf_of_none _ hnone)
  · intro f hf hnull
    rw [hget f hf] at hnull
    split at hnull <;> cases hnull
  · intro f hf hm
    rw [hget f hf, if_pos hm]
    rfl
  · intro f hf x hx
    rw [hget f hf] at hx
    split at hx
    · rename_i hm
      exact FieldState.present.inj hx ▸ hvalue f hf hm
    · cases hx

/-- A struct or union has a value if what it contains by value has one. -/
lemma exists_encodable_node (henums : ∀ e ∈ s.enums, e.labels ≠ []) (hclosed : s.Closed)
    (hunions : ∀ u ∈ s.unions, u.variants ≠ []) {node : Schema.Node}
    (hnode : s.InRange node.type)
    (hinner : ∀ inner : Schema.Node, s.InRange inner.type →
      Schema.ByValue s.structs s.unions node inner → ∃ v, Encodable s inner.type v) :
    ∃ v, Encodable s node.type v := by
  cases node with
  | struct id =>
    have hstruct : s.structs[id]? = some s.structs[id] := List.getElem?_eq_getElem hnode
    have hid : s.structType id = s.structs[id] := by
      rw [Schema.structType, hstruct, Option.getD_some]
    refine exists_encodable_struct hs fun f hf hm => ?_
    rw [hid] at hf
    have hrange := hclosed.fields _ (List.getElem_mem hnode) f hf
    -- a field that has to be sent is not optional, so its struct or union is contained by value
    have hoptional : f.optional = false := by
      rw [Schema.Field.isMandatory, Bool.and_eq_true] at hm
      simpa using hm.1
    refine exists_encodable_of_node henums hrange fun inner htype => ?_
    rw [htype] at hrange ⊢
    exact hinner inner hrange (.field hstruct hf hoptional htype)
  | union id =>
    have hunion : s.unions[id]? = some s.unions[id] := List.getElem?_eq_getElem hnode
    have hid : s.unionType id = s.unions[id] := by rw [Schema.unionType, hunion, Option.getD_some]
    obtain ⟨u, hu⟩ := List.exists_mem_of_ne_nil _ (hunions _ (List.getElem_mem hnode))
    have hrange := hclosed.variants _ (List.getElem_mem hnode) u hu
    have hpayload : ∃ v, Encodable s u.type v := by
      refine exists_encodable_of_node henums hrange fun inner htype => ?_
      rw [htype] at hrange ⊢
      exact hinner inner hrange (.variant hunion hu htype)
    obtain ⟨payload, hpayload⟩ := hpayload
    exact ⟨_, .union ((hs.unionType id).variantByTag?_tag (hid ▸ hu)) hpayload⟩

end

/-! ## What such values are refused for -/

lemma refuses_orTooLarge (type : TypeRef) (length : Nat) (written : Option Bytes) :
    Refuses IsSize (orTooLarge s type length written) := by
  cases written with
  | some bytes => exact refuses_ok bytes
  | none => exact refuses_error ⟨_, _, rfl⟩

section

variable (hs : s.Ascends)

include hs

lemma refuses_recordBody_of_sendable {id : Nat} {r : Record} (hr : (s.structType id).Sendable r)
    (h : ∀ f ∈ (s.structType id).fields, ∀ x, r.get f.tag = .present x →
      (encodeMember s f.tag f.type x).Refuses IsSize) : (recordBody s id r).Refuses IsSize := by
  rw [recordBody, structBody, (find?_undeclared_eq_none_iff s r).mpr hr.declared,
    assemble_eq_joined s (hs.structType id) r fun f hf => hf]
  refine refuses_joined fun f hf => ?_
  cases hstate : r.get f.tag with
  | present x => exact h f hf x hstate
  | null =>
    rw [encodeState, if_pos (hr.null f hf hstate)]
    exact Writing.refuses_fixed (refuses_ok _)
  | defaulted d | absent =>
    have hm : ¬ f.isMandatory := fun hm => by
      have hsent := hr.mandatory f hf hm
      rw [hstate] at hsent
      cases hsent
    rw [encodeState, if_neg hm]
    exact Writing.refuses_fixed (refuses_ok _)

/-- A member is refused for nothing but a length if its value can be encoded. -/
lemma Encodable.refuses_member (h : Encodable s type v) (tag : Tag) :
    (encodeMember s tag type v).Refuses IsSize := by
  induction h generalizing tag with
  | bool | int | f32 | f64 =>
    intro before
    unfold encodeMember
    simp only [if_pos]
    exact refuses_ok _
  | string | bytes =>
    intro before
    unfold encodeMember
    exact refuses_orTooLarge _ _ _
  | enum hc =>
    intro before
    unfold encodeMember
    simp only [if_pos hc]
    exact refuses_ok _
  | @union id active u payload hu h ih =>
    rw [encodeMember_union, unionBody]
    simp only [hu]
    exact (ih u.tag).block fun _ _ _ _ _ => refuses_orTooLarge _ _ _
  | struct hr h ih =>
    rw [encodeMember_struct]
    exact (refuses_recordBody_of_sendable hs hr fun f hf x hx => ih f hf x hx f.tag).block
      fun _ _ _ _ _ => refuses_orTooLarge _ _ _
  | array h ih =>
    rw [encodeMember_array]
    exact (Writing.refuses_fixed (refuses_orTooLarge _ _ _)).andThen
      (refuses_joined fun x hx => ih x hx .zero)

/-- A value that can be encoded is refused for nothing but a length. -/
lemma Encodable.refuses (h : Encodable s type v) : Refuses IsSize (encode s v type) := by
  cases h with
  | bool | int | f32 | f64 | string | bytes | enum | array =>
    unfold encode
    exact Encodable.refuses_member hs (by constructor <;> assumption) .zero 0
  | @union id active u payload hu h =>
    show Refuses IsSize (unionBody s id active payload 0)
    rw [unionBody]
    simp only [hu]
    exact h.refuses_member hs u.tag 0
  | struct hr h =>
    refine refuses_recordBody_of_sendable hs hr (fun f hf x hx => ?_) 0
    exact (h f hf x hx).refuses_member hs f.tag

end

/-- **Every type has a value.**  In a schema whose enums have labels, every type has a value with
which encoding finds no fault but, at most, its length. -/
theorem exists_encodable {p : Package} (hp : Schema.resolve p = .ok s)
    (henums : ∀ e ∈ s.enums, e.labels ≠ []) (htype : s.InRange type) :
    ∃ v, Encodable s type v ∧
      ∀ e, encode s v type = .error e → ∃ name length, e = .tooLarge name length := by
  have hs := Schema.ascends_of_resolve hp
  have hacyclic := (Schema.firstCycle?_eq_none_iff s.structs s.unions).mp
    (Schema.firstCycle?_of_resolve hp)
  have hunions : ∀ u ∈ s.unions, u.variants ≠ [] := by
    intro u hu
    obtain ⟨owner, -, hd⟩ :=
      Schema.exists_right_of_forall₂ (Schema.resolve_represents hp).1.unions u hu
    exact hd.ne_nil
  have hnode {node : Schema.Node} (hrange : s.InRange node.type) :
      ∃ v, Encodable s node.type v := by
    refine Schema.byValue_induction (motive := fun node => s.InRange node.type →
      ∃ v, Encodable s node.type v) hacyclic (fun node ih hrange => ?_)
      (Schema.mem_nodes_of_inRange hrange) hrange
    exact exists_encodable_node hs henums (Schema.closed_of_resolve hp) hunions hrange
      fun inner hinner hedge => ih inner (Schema.mem_nodes_of_inRange hinner) hedge hinner
  have hvalue : ∃ v, Encodable s type v := by
    refine exists_encodable_of_node henums htype fun node hnodeType => ?_
    rw [hnodeType] at htype ⊢
    exact hnode htype
  obtain ⟨v, hv⟩ := hvalue
  exact ⟨v, hv, hv.refuses hs⟩

/-- A package of letters, whose sender is a person or an office. -/
def letters : Package := ⟨"letters", [
  .struct "Letter" [⟨"sender", .named "Sender", false, none, none⟩,
    ⟨"style", .named "Style", false, none, none⟩,
    ⟨"reply", .named "Letter", true, none, none⟩] [],
  .union "Sender" [⟨"person", .named "Person", none⟩, ⟨"office", .named "string", none⟩] [],
  .struct "Person" [⟨"names", .array (.named "string"), false, none, none⟩] [],
  .enum "Style" [⟨"formal", some ⟨3, by decide⟩⟩]]⟩

/-- The schema of the package of letters. -/
def lettersSchema : Schema where
  package := "letters"
  fingerprint := Schema.fingerprintOf letters
  enums := [⟨"Style", [⟨"formal", ⟨3, by decide⟩⟩]⟩]
  unions := [⟨"Sender", [⟨"person", .ofNat 1, .struct 1⟩, ⟨"office", .ofNat 2, .prim .string⟩]⟩]
  structs := [
    ⟨"Letter", [⟨"sender", .ofNat 1, .union 0, false, none⟩,
      ⟨"style", .ofNat 2, .enum 0, false, none⟩, ⟨"reply", .ofNat 3, .struct 0, true, none⟩]⟩,
    ⟨"Person", [⟨"names", .ofNat 1, .array (.prim .string), false, none⟩]⟩]
  interfaces := []
  modules := []
  typeNames := [("Letter", .struct 0), ("Sender", .union 0), ("Person", .struct 1),
    ("Style", .enum 0)]
  interfaceNames := []

/-- A letter can be sent, although it may be the reply to another one. -/
theorem exists_encodable_letter :
    Schema.resolve letters = .ok lettersSchema ∧ (∀ e ∈ lettersSchema.enums, e.labels ≠ []) ∧
      lettersSchema.InRange (.struct 0) ∧
      ∃ v, Encodable lettersSchema (.struct 0) v ∧
        ∀ e, encode lettersSchema v (.struct 0) = .error e →
          ∃ name length, e = .tooLarge name length := by
  have hresolve : Schema.resolve letters = .ok lettersSchema := by rfl
  have henums : ∀ e ∈ lettersSchema.enums, e.labels ≠ [] := by simp [lettersSchema]
  have hrange : lettersSchema.InRange (.struct 0) := Nat.zero_lt_succ 1
  exact ⟨hresolve, henums, hrange, exists_encodable hresolve henums hrange⟩

end Codec

end SchemaRpc
