/-
# Values that can be encoded

What encoding asks of a value, its lengths apart: scalars of exactly the type, labels and
variants that are declared, and records that send what a struct has to send and store nothing
that it does not have.  For such values the projection to the own schema is the normal form,
and a value whose unsent fields are as a reader leaves them is its own normal form.
-/
import SchemaRpc.Proofs.Codec.Conformance
import SchemaRpc.Proofs.Codec.Encoding

namespace SchemaRpc

namespace Codec

open Wire

/-- A value can be encoded at a type as far as its lengths allow. -/
inductive Encodable (s : Schema) : TypeRef → Value → Prop where
  | bool (b : Bool) : Encodable s (.prim .bool) (.bool b)
  | int (k : IntKind) (n : k.Ranged) : Encodable s (.prim (.int k)) (.int k n)
  | f32 (x : Binary32) : Encodable s (.prim .f32) (.f32 x)
  | f64 (x : Binary64) : Encodable s (.prim .f64) (.f64 x)
  | string (text : String) : Encodable s (.prim .string) (.string text)
  | bytes (data : Bytes) : Encodable s (.prim .bytes) (.bytes data)
  | enum {id : Nat} {n : IntKind.i32.Ranged} (hc : (s.enumType id).contains n) :
    Encodable s (.enum id) (.enum n)
  | union {id : Nat} {active : Tag} {v : Schema.Variant} {payload : Value}
    (hv : (s.unionType id).variantByTag? active = some v) (h : Encodable s v.type payload) :
    Encodable s (.union id) (.union active payload)
  | struct {id : Nat} {r : Record} (hr : (s.structType id).Sendable r)
    (h : ∀ f ∈ (s.structType id).fields, ∀ x, r.get f.tag = .present x →
      Encodable s f.type x) : Encodable s (.struct id) (.struct r)
  | array {item : TypeRef} {items : List Value} (h : ∀ x ∈ items, Encodable s item x) :
    Encodable s (.array item) (.array items)

/-- Everywhere in a value, fields that are not sent are in the state that a reader gives them: a
field that is defaulted has the default of the schema, and one with a default is not absent. -/
def Settled (s : Schema) (type : TypeRef) (v : Value) : Prop :=
  ∀ id (r : Record), Contains s type v (.struct id) (.struct r) →
    ∀ f ∈ (s.structType id).fields,
      (∀ d, r.get f.tag = .defaulted d → f.default = some d) ∧
        (r.get f.tag = .absent → f.default = none)

variable {s : Schema} {type : TypeRef} {v : Value}

lemma Writes.encodable {p : Piece} (h : Writes s type v p) : Encodable s type v := by
  induction h with
  | bool | int | f32 | f64 | string | bytes => constructor
  | enum hc => exact .enum hc
  | union hv h hlen ih => exact .union hv ih
  | struct hr h hlen ih => exact .struct hr ih
  | array hcount h ih => exact .array ih

lemma WritesPayload.encodable {bytes : Bytes} (h : WritesPayload s type v bytes) :
    Encodable s type v := by
  cases h with
  | struct hr h => exact .struct hr fun f hf x hx => (h f hf x hx).encodable
  | union hv h => exact .union hv h.encodable
  | member hstruct hunion h => exact h.encodable

section

variable (hs : s.Ascends)

include hs

/-- The projection to the own schema retypes nothing. -/
lemma Encodable.project_eq_normalise (h : Encodable s type v) :
    v.project s type = v.normalise s type := by
  induction h with
  | bool | f32 | f64 | string | bytes | enum => rfl
  | int k n =>
    have hofInt : k.ofInt? n.val = some n := IntKind.ofInt?_eq_some_iff.mpr rfl
    simp only [Value.project, Value.normalise, Value.arrive, Value.retype, hofInt]
  | @union id active v payload hv h ih =>
    rw [Value.project, Value.arrive_union s _ hv, Value.normalise, Value.arrive_union s _ hv]
    exact congrArg _ ih
  | @struct id r hr h ih =>
    have hascends := hs.structType id
    rw [Value.project, Value.arrive_struct s _ hascends, Value.normalise,
      Value.arrive_struct s _ hascends]
    refine congrArg _ (Schema.StructType.recordOf_congr fun f hf => ?_)
    cases hstate : r.get f.tag with
    | present x => exact congrArg (fun y => f.fill (.present y)) (ih f hf x hstate)
    | null | defaulted d | absent => rfl
  | @array item items h ih =>
    rw [Value.project, Value.arrive_array, Value.normalise, Value.arrive_array]
    exact congrArg _ (List.map_congr_left ih)

/-- A settled value is its own normal form. -/
lemma Encodable.normalise_eq_self (h : Encodable s type v) (hsettled : Settled s type v) :
    v.normalise s type = v := by
  induction h with
  | bool | int | f32 | f64 | string | bytes | enum => rfl
  | @union id active v payload hv h ih =>
    obtain ⟨hmem, htag⟩ := Schema.UnionType.mem_of_variantByTag? hv
    rw [Value.normalise, Value.arrive_union s _ hv]
    exact congrArg _ (ih fun id r hpart => hsettled id r (.payload hmem htag hpart))
  | @struct id r hr h ih =>
    have hascends := hs.structType id
    rw [Value.normalise, Value.arrive_struct s _ hascends]
    refine congrArg _ (hascends.eq_recordOf (fun f hf => ?_) fun t ht => ?_).symm
    · obtain ⟨hdefaulted, habsent⟩ := hsettled id r (.self _ _) f hf
      cases hstate : r.get f.tag with
      | present x =>
        have hx : x.normalise s f.type = x := ih f hf x hstate fun id' r' hpart =>
          hsettled id' r' (.field hf hstate hpart)
        exact (congrArg FieldState.present hx).symm
      | null => rfl
      | defaulted d =>
        show _ = f.fill (.defaulted d)
        rw [Schema.Field.fill, hdefaulted d hstate]
        rfl
      | absent =>
        show _ = f.fill .absent
        rw [Schema.Field.fill, habsent hstate]
        rfl
    · -- a tag that the struct does not have is not stored, or the value could not be encoded
      by_contra hstored
      have hdeclared := hr.declared t ((Record.mem_tags_iff r t).mpr hstored)
      rw [ht] at hdeclared
      cases hdeclared
  | @array item items h ih =>
    rw [Value.normalise, Value.arrive_array]
    refine congrArg _ ((List.map_congr_left fun x hx => ?_).trans (List.map_id items))
    exact ih x hx fun id r hpart => hsettled id r (.item hx hpart)

end

end Codec

end SchemaRpc
