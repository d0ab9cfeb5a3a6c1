/-
# Written members as they are read

What encoding writes for a scalar is read back as the same scalar.  Every written member can be
passed over, within the depth to which the value nests, and none is mistaken for a null.
-/
import SchemaRpc.Proofs.Codec.Encoding
import SchemaRpc.Proofs.Value.Nesting

namespace SchemaRpc

namespace Codec

open Wire

/-! ## Scalars -/

lemma i64_holds_of_ne_u64 {k : IntKind} (hk : k ≠ .u64) {n : Int} (h : k.Holds n) :
    IntKind.i64.Holds n := by
  obtain ⟨hlow, hhigh⟩ := h
  have hbounds : -9223372036854775808 ≤ k.least ∧ k.greatest ≤ 9223372036854775807 := by
    revert hk
    cases k <;> decide
  exact ⟨hbounds.1.trans hlow, hhigh.trans hbounds.2⟩

/-- A written integer is read as itself at every type that holds it. -/
lemma readingOf_intPiece {k : IntKind} {n : Int} (h : k.Holds n) :
    readingOf k (intPiece n).kind (intPiece n).body = n := by
  unfold readingOf
  by_cases hquad : k = .u64 ∧ (intPiece n).kind = .quad
  · rw [if_pos hquad]
    exact toNat_intPiece (hquad.1 ▸ h) hquad.2
  · rw [if_neg hquad]
    refine toInt_intPiece ?_
    by_cases hk : k = .u64
    · -- less than eight bytes are written, so the number is one of the signed ones
      by_contra hlarge
      exact hquad ⟨hk, intPiece_kind_of_not_holds hlarge⟩
    · exact i64_holds_of_ne_u64 hk h

lemma isScalar_bool (b : Bool) : IsScalar .bool (intPiece (if b then 1 else 0)).kind
    (intPiece (if b then 1 else 0)).body (.bool b) :=
  .bool (intPiece_width _) (toInt_intPiece (by cases b <;> decide))

lemma isScalar_int {k : IntKind} (n : k.Ranged) :
    IsScalar (.int k) (intPiece n.val).kind (intPiece n.val).body (.int k n) :=
  .int (intPiece_width _) (readingOf_intPiece n.holds).symm

lemma isScalar_f32 (x : Binary32) :
    IsScalar .f32 .int4 (Bytes.ofNat 4 x.bits.toNat) (.f32 x) := by
  have h := IsScalar.f32 (Bytes.length_ofNat 4 x.bits.toNat)
  rwa [Bytes.uint32_read_back] at h

lemma isScalar_f64 (x : Binary64) :
    IsScalar .f64 .quad (Bytes.ofNat 8 x.bits.toNat) (.f64 x) := by
  have h := IsScalar.f64 (Bytes.length_ofNat 8 x.bits.toNat)
  rwa [Bytes.uint64_read_back] at h

lemma isLabel_enum {e : Schema.EnumType} {n : IntKind.i32.Ranged} (hc : e.contains n) :
    IsLabel e (intPiece n.val).kind (intPiece n.val).body (.enum n) := by
  have hi64 := i64_holds_of_ne_u64 (by decide : IntKind.i32 ≠ .u64) n.holds
  exact .mk (intPiece_width _) (toInt_intPiece hi64).symm hc

/-! ## Passing over and nulls -/

lemma skipsItems_flatMap {depth : Nat} {items : List Value} {part : Value → Piece}
    (h : ∀ x ∈ items, Skips depth (part x).kind (part x).body) :
    SkipsItems depth items.length (items.flatMap fun x => (part x).bytes .zero) := by
  induction items with
  | nil => exact .nil
  | cons x items ih =>
    rw [List.forall_mem_cons] at h
    rw [List.flatMap_cons, Piece.bytes, List.append_assoc]
    exact .cons (isHeader_header _ _) h.1 (ih h.2)

variable {s : Schema} {type : TypeRef} {v : Value} {p : Piece}

/-- A written member can be passed over. -/
lemma Writes.skips (h : Writes s type v p) {depth : Nat} (hdepth : v.nesting ≤ depth) :
    Skips depth p.kind p.body := by
  induction h generalizing depth with
  | bool | int | enum => exact .int (intPiece_width _)
  | f32 | f64 => exact .int (by simp [Kind.intWidth?])
  | string hlen | bytes hlen => exact .block (isBlock_leastBlock hlen)
  | union _ _ hlen | struct _ _ hlen => exact .block (isBlock_wideBlock hlen)
  | @array item items part hcount h ih =>
    obtain ⟨depth, rfl, hitems⟩ := Value.nesting_array_le_iff.mp hdepth
    refine .repeated (Bytes.length_ofNat 4 _) ?_
    rw [Bytes.toNat_ofNat_of_lt hcount]
    exact skipsItems_flatMap fun x hx => ih x hx (hitems x hx)

lemma notNull_leastBlock {content : Bytes} (hlen : content.length < lengthLimit)
    (hne : content ≠ []) (more : Bytes) :
    NotNull (leastBlock content).kind ((leastBlock content).body ++ more) := by
  rintro ⟨hkind, hhead⟩
  -- a null is a block of the smallest kind without content
  have hblock := isBlock_leastBlock hlen
  rw [hkind] at hblock
  have hpos := hblock.length_lt
  obtain ⟨b, body, hbody⟩ := List.exists_cons_of_length_pos (Nat.zero_lt_of_lt hpos)
  rw [hbody] at hblock hhead
  exact hne (hblock.head?_eq_zero_iff.mp hhead)

/-- A written member is no null. -/
lemma Writes.notNull (h : Writes s type v p) (more : Bytes) : NotNull p.kind (p.body ++ more) := by
  cases h with
  | bool | int | enum => exact fun hnull => intPiece_kind_ne_block _ hnull.1
  | f32 | f64 | union | struct | array => exact fun hnull => nomatch hnull.1
  | string hlen | bytes hlen => exact notNull_leastBlock hlen (by simp) more

end Codec

end SchemaRpc
