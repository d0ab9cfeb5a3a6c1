/-
# Members apart from their tags

A written member is a header and the bytes after it, and the tag stands in the header only.  A
`Piece` is a member without its tag: a kind and the bytes after the header.  Written integers and
lengths take the smallest layout, so no layout that a reader accepts for the same number or
content is shorter.
-/
import SchemaRpc.Proofs.Wire.Layout
import SchemaRpc.Wire.Member

namespace SchemaRpc

namespace Wire

/-- A member without its tag. -/
structure Piece where
  kind : Kind
  body : Bytes

instance : Inhabited Piece := ⟨⟨.block1, []⟩⟩

/-- The member with a tag. -/
def Piece.bytes (p : Piece) (tag : Tag) : Bytes := header p.kind tag ++ p.body

lemma length_header (kind : Kind) (tag : Tag) :
    (header kind tag).length = 1 + extraTagBytes tag := length_bytes ⟨kind, tag⟩

lemma isHeader_header (kind : Kind) (tag : Tag) : IsHeader (header kind tag) ⟨kind, tag⟩ :=
  .bytes ⟨kind, tag⟩

/-! ## Integers -/

/-- An integer in the smallest layout. -/
def intPiece (n : Int) : Piece :=
  if IntKind.i8.Holds n then ⟨.int1, Bytes.ofInt 1 n⟩
  else if IntKind.i16.Holds n then ⟨.int2, Bytes.ofInt 2 n⟩
  else if IntKind.i32.Holds n then ⟨.int4, Bytes.ofInt 4 n⟩
  else ⟨.quad, Bytes.ofInt 8 n⟩

lemma writeInt_eq (tag : Tag) (n : Int) : writeInt tag n = (intPiece n).bytes tag := by
  unfold writeInt intPiece
  split <;> [skip; split <;> [skip; split]] <;> rfl

lemma intPiece_width (n : Int) :
    (intPiece n).kind.intWidth? = some (intPiece n).body.length := by
  unfold intPiece
  split <;> [skip; split <;> [skip; split]] <;> simp [Kind.intWidth?]

lemma intPiece_kind_ne_block (n : Int) : (intPiece n).kind ≠ .block1 := by
  unfold intPiece
  split <;> [skip; split <;> [skip; split]] <;> exact nofun

/-- What no signed layout holds takes eight bytes. -/
lemma intPiece_kind_of_not_holds {n : Int} (h : ¬ IntKind.i64.Holds n) :
    (intPiece n).kind = .quad := by
  have hbounds : ¬(-9223372036854775808 ≤ n ∧ n ≤ 9223372036854775807) := h
  have h8 : ¬ IntKind.i8.Holds n := fun ⟨hlow, hhigh⟩ => by
    change -128 ≤ n at hlow
    change n ≤ 127 at hhigh
    omega
  have h16 : ¬ IntKind.i16.Holds n := fun ⟨hlow, hhigh⟩ => by
    change -32768 ≤ n at hlow
    change n ≤ 32767 at hhigh
    omega
  have h32 : ¬ IntKind.i32.Holds n := fun ⟨hlow, hhigh⟩ => by
    change -2147483648 ≤ n at hlow
    change n ≤ 2147483647 at hhigh
    omega
  rw [intPiece, if_neg h8, if_neg h16, if_neg h32]

/-- An integer of at most eight bytes reads back. -/
lemma toInt_intPiece {n : Int} (h : IntKind.i64.Holds n) : Bytes.toInt (intPiece n).body = n := by
  have h64 : -9223372036854775808 ≤ n ∧ n ≤ 9223372036854775807 := h
  unfold intPiece
  split <;> [rename_i hn; split <;> [rename_i hn; split <;> [rename_i hn; skip]]]
  · have hb : -128 ≤ n ∧ n ≤ 127 := hn
    have hspan : (Bytes.span 1 : Int) = 256 := by decide
    exact Bytes.toInt_ofInt (by omega) (by omega)
  · have hb : -32768 ≤ n ∧ n ≤ 32767 := hn
    have hspan : (Bytes.span 2 : Int) = 65536 := by decide
    exact Bytes.toInt_ofInt (by omega) (by omega)
  · have hb : -2147483648 ≤ n ∧ n ≤ 2147483647 := hn
    have hspan : (Bytes.span 4 : Int) = 4294967296 := by decide
    exact Bytes.toInt_ofInt (by omega) (by omega)
  · have hspan : (Bytes.span 8 : Int) = 18446744073709551616 := by decide
    exact Bytes.toInt_ofInt (by omega) (by omega)

/-- Only integers of eight bytes are written in eight bytes, those beyond the signed ones too. -/
lemma toNat_intPiece {n : Int} (h : IntKind.u64.Holds n) (hk : (intPiece n).kind = .quad) :
    (Bytes.toNat (intPiece n).body : Int) = n := by
  have h64 : 0 ≤ n ∧ n ≤ 18446744073709551615 := h
  have hspan : Bytes.span 8 = 18446744073709551616 := by decide
  unfold intPiece at hk ⊢
  split <;> [rename_i hn; split <;> [rename_i hn; split <;> [rename_i hn; skip]]]
  · simp [hn] at hk
  · simp_all
  · simp_all
  · have hself : n % (Bytes.span 8 : Int) = n := Int.emod_eq_of_lt h64.1 (by omega)
    show (Bytes.toNat (Bytes.ofNat 8 (n % (Bytes.span 8 : Int)).toNat) : Int) = n
    rw [hself, Bytes.toNat_ofNat_of_lt (by omega)]
    omega

/-- Bytes of a width stand for integers that the smallest layout of that width holds. -/
lemma length_intPiece_le {kind : Kind} {bytes : Bytes} (hw : kind.intWidth? = some bytes.length) :
    (intPiece (Bytes.toInt bytes)).body.length ≤ bytes.length := by
  have hbounds := Bytes.toInt_bounds bytes
  generalize Bytes.toInt bytes = n at hbounds
  have hspan (width : Nat) (hwidth : width = bytes.length) :
      -(Bytes.span width : Int) ≤ 2 * n ∧ 2 * n < Bytes.span width := hwidth ▸ hbounds
  have h1 : Bytes.span 1 = 256 := by decide
  have h2 : Bytes.span 2 = 65536 := by decide
  have h4 : Bytes.span 4 = 4294967296 := by decide
  have hle : (intPiece n).body.length ≤ 8 := by
    unfold intPiece
    split <;> [skip; split <;> [skip; split]] <;> simp
  -- a number of a width fits that width, so the search for the smallest one ends there
  cases kind with
  | block1 | block2 | block4 | repeated => cases hw
  | int1 =>
    have hlen := Option.some.inj hw
    have hn := hspan 1 hlen
    have hold : IntKind.i8.Holds n := ⟨by show -128 ≤ n; omega, by show n ≤ 127; omega⟩
    rw [intPiece, if_pos hold, Bytes.length_ofInt]
    omega
  | int2 =>
    have hlen := Option.some.inj hw
    have hn := hspan 2 hlen
    have hold : IntKind.i16.Holds n := ⟨by show -32768 ≤ n; omega, by show n ≤ 32767; omega⟩
    by_cases h8 : IntKind.i8.Holds n
    · rw [intPiece, if_pos h8, Bytes.length_ofInt]
      omega
    · rw [intPiece, if_neg h8, if_pos hold, Bytes.length_ofInt]
      omega
  | int4 =>
    have hlen := Option.some.inj hw
    have hn := hspan 4 hlen
    have hold : IntKind.i32.Holds n :=
      ⟨by show -2147483648 ≤ n; omega, by show n ≤ 2147483647; omega⟩
    by_cases h8 : IntKind.i8.Holds n
    · rw [intPiece, if_pos h8, Bytes.length_ofInt]
      omega
    · by_cases h16 : IntKind.i16.Holds n
      · rw [intPiece, if_neg h8, if_pos h16, Bytes.length_ofInt]
        omega
      · rw [intPiece, if_neg h8, if_neg h16, if_pos hold, Bytes.length_ofInt]
        omega
  | quad =>
    have hlen := Option.some.inj hw
    omega

/-! ## Blocks -/

/-- A block in the smallest layout. -/
def leastBlock (content : Bytes) : Piece :=
  if content.length < 256 then ⟨.block1, Bytes.ofNat 1 content.length ++ content⟩
  else if content.length < 65536 then ⟨.block2, Bytes.ofNat 2 content.length ++ content⟩
  else ⟨.block4, Bytes.ofNat 4 content.length ++ content⟩

/-- A block in the widest layout. -/
def wideBlock (content : Bytes) : Piece :=
  ⟨.block4, Bytes.ofNat 4 content.length ++ content⟩

lemma writeBytes?_eq_some_iff {tag : Tag} {data bytes : Bytes} :
    writeBytes? tag data = some bytes ↔
      (data ++ [0]).length < lengthLimit ∧ bytes = (leastBlock (data ++ [0])).bytes tag := by
  have hlen : (data ++ [0]).length = data.length + 1 := by simp
  unfold writeBytes? writeLength? leastBlock
  rw [hlen]
  by_cases h1 : data.length + 1 < 256
  · have hlimit : data.length + 1 < lengthLimit := Nat.lt_trans h1 (by decide)
    simp [h1, hlimit, Piece.bytes, eq_comm]
  · by_cases h2 : data.length + 1 < 65536
    · have hlimit : data.length + 1 < lengthLimit := Nat.lt_trans h2 (by decide)
      simp [h1, h2, hlimit, Piece.bytes, eq_comm]
    · by_cases h4 : data.length + 1 < lengthLimit
      · simp [h1, h2, h4, Piece.bytes, eq_comm]
      · simp [h1, h2, h4]

lemma writeBlock?_eq_some_iff {tag : Tag} {content bytes : Bytes} :
    writeBlock? tag content = some bytes ↔
      content.length < lengthLimit ∧ bytes = (wideBlock content).bytes tag := by
  unfold writeBlock? wideBlock
  by_cases h : content.length < lengthLimit
  · simp [h, Piece.bytes, eq_comm]
  · simp [h]

lemma writeRepeat?_eq_some_iff {tag : Tag} {count : Nat} {bytes : Bytes} :
    writeRepeat? tag count = some bytes ↔
      count < lengthLimit ∧ bytes = header .repeated tag ++ Bytes.ofNat 4 count := by
  unfold writeRepeat?
  by_cases h : count < lengthLimit
  · simp [h, eq_comm]
  · simp [h]

lemma isBlock_ofNat {kind : Kind} {width : Nat} {content : Bytes} (hk : kind.isBlock)
    (hw : kind.lengthWidth? = some width) (hlen : content.length < Bytes.span width) :
    IsBlock kind (Bytes.ofNat width content.length ++ content) content :=
  .mk hk (by rw [hw, Bytes.length_ofNat]) (Bytes.toNat_ofNat_of_lt hlen)

lemma isBlock_leastBlock {content : Bytes} (h : content.length < lengthLimit) :
    IsBlock (leastBlock content).kind (leastBlock content).body content := by
  unfold leastBlock
  split <;> [rename_i h1; split <;> [rename_i h2; skip]]
  · exact isBlock_ofNat rfl rfl h1
  · exact isBlock_ofNat rfl rfl h2
  · exact isBlock_ofNat rfl rfl h

lemma isBlock_wideBlock {content : Bytes} (h : content.length < lengthLimit) :
    IsBlock (wideBlock content).kind (wideBlock content).body content :=
  isBlock_ofNat rfl rfl h

lemma length_wideBlock (content : Bytes) : (wideBlock content).body.length = 4 + content.length := by
  simp [wideBlock]

/-- No block with the same content is shorter. -/
lemma length_leastBlock_le {kind : Kind} {bytes content : Bytes} (h : IsBlock kind bytes content) :
    (leastBlock content).body.length ≤ bytes.length := by
  cases h with
  | @mk front _ hk hw hl =>
    have hlt := Bytes.toNat_lt_span front
    rw [hl] at hlt
    have hspan (width : Nat) (hwidth : width = front.length) :
        content.length < Bytes.span width := hwidth ▸ hlt
    have h1 : Bytes.span 1 = 256 := by decide
    have h2 : Bytes.span 2 = 65536 := by decide
    cases kind with
    | int1 | int2 | int4 | quad | repeated => cases hk
    | block1 =>
      have hlen := Option.some.inj hw
      have hcontent := hspan 1 hlen
      rw [leastBlock, if_pos (by omega)]
      simp only [List.length_append, Bytes.length_ofNat]
      omega
    | block2 =>
      have hlen := Option.some.inj hw
      have hcontent := hspan 2 hlen
      unfold leastBlock
      split <;> [skip; rw [if_pos (by omega)]] <;>
        simp only [List.length_append, Bytes.length_ofNat] <;> omega
    | block4 =>
      have hlen := Option.some.inj hw
      unfold leastBlock
      split <;> [skip; split] <;>
        simp only [List.length_append, Bytes.length_ofNat] <;> omega

end Wire

end SchemaRpc
