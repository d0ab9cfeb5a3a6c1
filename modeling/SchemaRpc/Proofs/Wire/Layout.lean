/-
# The layout of members

The bytes that reading operations accept, written down: headers, which may be longer than the
tag needs, integers of every width, blocks behind a length of every width, and whole members as
they are passed over.  Every operation accepts exactly its layout.
-/
import Mathlib.Data.List.Basic
import SchemaRpc.Proofs.Wire.Parses

namespace SchemaRpc

namespace Wire

/-! ## Headers -/

/-- Bytes that read as a header. -/
inductive IsHeader : Bytes → Header → Prop where
  /-- The tag stands in the first byte. -/
  | short {b : UInt8} (h : tagBits b < 30) : IsHeader [b] ⟨kindOf b, .ofNat (tagBits b)⟩
  /-- The tag stands in a second byte. -/
  | byte {b t : UInt8} (h : tagBits b = 30) : IsHeader [b, t] ⟨kindOf b, .ofNat t.toNat⟩
  /-- The tag stands in two more bytes. -/
  | word {b low high : UInt8} (h : tagBits b = 31) :
    IsHeader [b, low, high] ⟨kindOf b, .ofNat (Bytes.toNat [low, high])⟩

lemma tagBits_lt (b : UInt8) : tagBits b < 32 := Nat.mod_lt _ (by decide)

lemma Tag.ofNat_val (t : Tag) : Tag.ofNat t.val = t := by
  apply Fin.ext
  exact Nat.mod_eq_of_lt t.isLt

lemma extraTagBytes_le (t : Tag) : extraTagBytes t ≤ 2 := by
  unfold extraTagBytes
  split <;> [skip; split] <;> omega

lemma length_bytes (h : Header) : h.bytes.length = 1 + extraTagBytes h.tag := by
  have hle := extraTagBytes_le h.tag
  obtain h0 | h1 | h2 : extraTagBytes h.tag = 0 ∨ extraTagBytes h.tag = 1 ∨
      extraTagBytes h.tag = 2 := by omega
  · simp [Header.bytes, h0]
  · simp [Header.bytes, h1]
  · simp [Header.bytes, h2]

namespace IsHeader

variable {head : Bytes} {h : Header}

lemma ne_nil (hh : IsHeader head h) : head ≠ [] := by
  cases hh <;> simp

lemma length_pos (hh : IsHeader head h) : 0 < head.length :=
  List.length_pos_iff.mpr hh.ne_nil

/-- The written header of a tag is a header. -/
lemma bytes (h : Header) : IsHeader h.bytes h := by
  obtain ⟨kind, tag⟩ := h
  have hlt := tag.isLt
  unfold Header.bytes extraTagBytes
  by_cases h29 : tag.val ≤ 29
  · have hbits : tagBits (firstByte kind tag.val) = tag.val := tagBits_firstByte (by omega)
    have hshort : IsHeader [firstByte kind tag.val] _ := .short (by rw [hbits]; omega)
    rw [hbits, kindOf_firstByte (by omega), Tag.ofNat_val] at hshort
    simpa only [if_pos h29] using hshort
  · by_cases h255 : tag.val ≤ 255
    · have hbits : tagBits (firstByte kind 30) = 30 := tagBits_firstByte (by omega)
      have hval : (UInt8.ofNat tag.val).toNat = tag.val := by
        rw [UInt8.toNat_ofNat']
        omega
      have hbyte : IsHeader [firstByte kind 30, UInt8.ofNat tag.val] _ := .byte hbits
      rw [kindOf_firstByte (by omega), hval, Tag.ofNat_val] at hbyte
      simpa only [if_neg h29, if_pos h255] using hbyte
    · have hbits : tagBits (firstByte kind 31) = 31 := tagBits_firstByte (by omega)
      have hval : Bytes.toNat (Bytes.ofNat 2 tag.val) = tag.val :=
        Bytes.toNat_ofNat_of_lt hlt
      have hword : IsHeader (firstByte kind 31 :: Bytes.ofNat 2 tag.val) _ := .word hbits
      rw [kindOf_firstByte (by omega)] at hword
      change IsHeader _ ⟨kind, Tag.ofNat (Bytes.toNat (Bytes.ofNat 2 tag.val))⟩ at hword
      rw [hval, Tag.ofNat_val] at hword
      simpa only [if_neg h29, if_neg h255] using hword

/-- No header is shorter than the written header of its tag. -/
lemma length_bytes_le (hh : IsHeader head h) : h.bytes.length ≤ head.length := by
  rw [length_bytes]
  cases hh with
  | @short b hb =>
    have hval : (Tag.ofNat (tagBits b)).val = tagBits b := Nat.mod_eq_of_lt (by omega)
    rw [extraTagBytes, hval, if_pos (by omega)]
    simp
  | @byte b t hb =>
    have hlt := t.toNat_lt
    have hval : (Tag.ofNat t.toNat).val = t.toNat := Nat.mod_eq_of_lt (by omega)
    simp only [extraTagBytes, hval, List.length_cons, List.length_nil]
    split <;> [skip; split] <;> omega
  | @word b low high hb =>
    have hextra := extraTagBytes_le (Tag.ofNat (Bytes.toNat [low, high]))
    simp only [List.length_cons, List.length_nil]
    omega

end IsHeader

lemma Reader.parses_readHeader : Parses readHeader IsHeader := by
  refine (parses_takeByte.bind fun first => Parses.ite (.pure _) (Parses.ite
    ((parses_takeNat 1).bind_of_nil fun a => .pure _)
    ((parses_takeNat 2).bind_of_nil fun a => .pure _))).congr fun bytes h => ?_
  constructor
  · rintro ⟨first, _, back, rfl, rfl, hback⟩
    have hlt := tagBits_lt first
    split at hback
    · rename_i hbits
      obtain ⟨rfl, rfl⟩ := hback
      exact .short hbits
    · split at hback
      · rename_i hbits
        obtain ⟨_, ⟨hlen, rfl⟩, rfl⟩ := hback
        obtain ⟨t, rfl⟩ := List.length_eq_one_iff.mp hlen
        exact .byte hbits
      · obtain ⟨_, ⟨hlen, rfl⟩, rfl⟩ := hback
        obtain ⟨low, high, rfl⟩ := List.length_eq_two.mp hlen
        exact .word (by omega)
  · -- the first byte tells how many bytes of the tag follow
    rintro (@⟨b, hb⟩ | @⟨b, t, hb⟩ | @⟨b, low, high, hb⟩)
    · refine ⟨b, [b], [], rfl, rfl, ?_⟩
      rw [if_pos hb]
      exact ⟨rfl, rfl⟩
    · refine ⟨b, [b], [t], rfl, rfl, ?_⟩
      rw [if_neg (by omega), if_pos hb]
      exact ⟨_, ⟨rfl, rfl⟩, by simp⟩
    · refine ⟨b, [b], [low, high], rfl, rfl, ?_⟩
      rw [if_neg (by omega), if_neg (by omega)]
      exact ⟨_, ⟨rfl, rfl⟩, rfl⟩

/-! ## Numbers -/

/-- The width of an integer of a kind. -/
def Kind.intWidth? : Kind → Option Nat
  | .int1 => some 1
  | .int2 => some 2
  | .int4 => some 4
  | .quad => some 8
  | _ => none

/-- The width of the length or count that a kind begins with. -/
def Kind.lengthWidth? : Kind → Option Nat
  | .block1 => some 1
  | .block2 => some 2
  | .block4 | .repeated => some 4
  | _ => none

namespace Reader

lemma parses_readInt (kind : Kind) : Parses (readInt kind) fun bytes n =>
    kind.intWidth? = some bytes.length ∧ n = Bytes.toInt bytes := by
  cases kind with
  | int1 => exact (parses_takeInt 1).congr fun bytes n => by simp [Kind.intWidth?, eq_comm]
  | int2 => exact (parses_takeInt 2).congr fun bytes n => by simp [Kind.intWidth?, eq_comm]
  | int4 => exact (parses_takeInt 4).congr fun bytes n => by simp [Kind.intWidth?, eq_comm]
  | quad => exact (parses_takeInt 8).congr fun bytes n => by simp [Kind.intWidth?, eq_comm]
  | block1 | block2 | block4 | repeated =>
    exact (Parses.get_bind fun start => .throw _).congr fun bytes n => by simp [Kind.intWidth?]

lemma parses_readQuad (kind : Kind) : Parses (readQuad kind) fun bytes bits =>
    kind = .quad ∧ bytes.length = 8 ∧ bits = UInt64.ofNat (Bytes.toNat bytes) := by
  cases kind with
  | quad =>
    refine ((parses_takeNat 8).bind_of_nil fun a => .pure _).congr fun bytes bits => ?_
    constructor
    · rintro ⟨_, ⟨hlen, rfl⟩, rfl⟩
      exact ⟨rfl, hlen, rfl⟩
    · rintro ⟨-, hlen, rfl⟩
      exact ⟨_, ⟨hlen, rfl⟩, rfl⟩
  | int1 | int2 | int4 | block1 | block2 | block4 | repeated =>
    exact (Parses.get_bind fun start => .throw _).congr fun bytes n => by simp

lemma parses_readFloat32 (kind : Kind) : Parses (readFloat32 kind) fun bytes x =>
    kind = .int4 ∧ bytes.length = 4 ∧ x = ⟨UInt32.ofNat (Bytes.toNat bytes)⟩ := by
  cases kind with
  | int4 =>
    refine ((parses_takeNat 4).bind_of_nil fun a => .pure _).congr fun bytes x => ?_
    constructor
    · rintro ⟨_, ⟨hlen, rfl⟩, rfl⟩
      exact ⟨rfl, hlen, rfl⟩
    · rintro ⟨-, hlen, rfl⟩
      exact ⟨_, ⟨hlen, rfl⟩, rfl⟩
  | int1 | int2 | quad | block1 | block2 | block4 | repeated =>
    exact (Parses.get_bind fun start => .throw _).congr fun bytes n => by simp

lemma parses_readFloat64 (kind : Kind) : Parses (readFloat64 kind) fun bytes x =>
    kind = .quad ∧ bytes.length = 8 ∧ x = ⟨UInt64.ofNat (Bytes.toNat bytes)⟩ := by
  refine ((parses_readQuad kind).bind_of_nil fun a => .pure _).congr fun bytes x => ?_
  constructor
  · rintro ⟨_, ⟨rfl, hlen, rfl⟩, rfl⟩
    exact ⟨rfl, hlen, rfl⟩
  · rintro ⟨rfl, hlen, rfl⟩
    exact ⟨_, ⟨rfl, hlen, rfl⟩, rfl⟩

lemma parses_readLength (kind : Kind) : Parses (readLength kind) fun bytes n =>
    kind.lengthWidth? = some bytes.length ∧ n = Bytes.toNat bytes := by
  cases kind with
  | block1 =>
    exact (parses_takeNat 1).congr fun bytes n => by simp [Kind.lengthWidth?, eq_comm]
  | block2 =>
    exact (parses_takeNat 2).congr fun bytes n => by simp [Kind.lengthWidth?, eq_comm]
  | block4 | repeated =>
    exact (parses_takeNat 4).congr fun bytes n => by simp [Kind.lengthWidth?, eq_comm]
  | int1 | int2 | int4 | quad =>
    exact (Parses.get_bind fun start => .throw _).congr fun bytes n => by
      simp [Kind.lengthWidth?]

end Reader

/-! ## Blocks -/

/-- A block of a kind with its content: a length, then that many bytes. -/
inductive IsBlock (kind : Kind) : (bytes content : Bytes) → Prop where
  | mk {front content : Bytes} (hk : kind.isBlock) (hw : kind.lengthWidth? = some front.length)
    (hl : Bytes.toNat front = content.length) : IsBlock kind (front ++ content) content

namespace IsBlock

variable {kind : Kind} {bytes content : Bytes}

lemma isBlock (h : IsBlock kind bytes content) : kind.isBlock := by
  cases h
  assumption

lemma length_lt (h : IsBlock kind bytes content) : content.length < bytes.length := by
  cases h with
  | mk hk hw hl =>
    have hpos : 0 < (kind.lengthWidth?).getD 0 := by
      revert hk
      cases kind <;> decide
    rw [hw] at hpos
    rw [List.length_append]
    exact Nat.lt_add_of_pos_left hpos

/-- Only a block of the smallest kind without content reads as a null. -/
lemma head?_eq_zero_iff (h : IsBlock .block1 bytes content) :
    bytes.head? = some 0 ↔ content = [] := by
  cases h with
  | @mk front _ hk hw hl =>
    obtain ⟨b, rfl⟩ := List.length_eq_one_iff.mp (Option.some.inj hw).symm
    have hb : b.toNat = content.length := by simpa using hl
    rw [List.cons_append, List.head?_cons, Option.some.injEq, ← List.length_eq_zero_iff, ← hb,
      ← UInt8.toNat_inj]
    rfl

end IsBlock

namespace Reader

/-- Taking the closing zero byte off. -/
lemma parses_dropLast (closed : Bytes) {op : Reading Bytes} (hop : Parses op fun _ _ => False) :
    Parses (if closed.getLast? = some 0 then pure closed.dropLast else op)
      fun bytes data => bytes = [] ∧ closed = data ++ [0] := by
  refine (Parses.ite (.pure _) hop).congr fun bytes data => ?_
  by_cases hlast : closed.getLast? = some 0
  · have hclosed := List.dropLast_append_getLast? 0 hlast
    rw [if_pos hlast]
    constructor
    · rintro ⟨rfl, rfl⟩
      exact ⟨rfl, hclosed.symm⟩
    · rintro ⟨rfl, rfl⟩
      simp
  · rw [if_neg hlast]
    constructor
    · exact False.elim
    · rintro ⟨-, rfl⟩
      simp at hlast

lemma parses_readBytes (kind : Kind) : Parses (readBytes kind) fun bytes data =>
    IsBlock kind bytes (data ++ [0]) := by
  refine (Parses.get_bind fun start => (parses_readLength kind).bind fun length =>
    Parses.ite (c := kind = .repeated ∨ length = 0) (.throw _)
      ((parses_take length).bind_of_nil fun closed => parses_dropLast closed
        (.get_bind fun stop => .throw _))).congr fun bytes data => ?_
  constructor
  · rintro ⟨_, front, back, rfl, ⟨hw, rfl⟩, hback⟩
    split at hback
    · exact hback.elim
    · rename_i hkind
      obtain ⟨_, ⟨hlen, rfl⟩, rfl⟩ := hback
      refine .mk ?_ hw hlen.symm
      revert hw
      cases kind <;> simp_all [Kind.lengthWidth?, Kind.isBlock]
  · rintro @⟨front, _, hk, hw, hl⟩
    refine ⟨_, front, data ++ [0], rfl, ⟨hw, rfl⟩, ?_⟩
    -- the content ends with a zero byte, so its length is not zero
    have hkind : ¬(kind = .repeated ∨ Bytes.toNat front = 0) := by
      rintro (rfl | h0)
      · cases hk
      · simp [h0] at hl
    rw [if_neg hkind]
    exact ⟨_, ⟨hl.symm, rfl⟩, rfl⟩

/-- A reader for a nested block is confined to the content and stands at its place. -/
lemma readBlock_eq_ok_iff {kind : Kind} {r block after : Reader} :
    readBlock kind r = .ok block after ↔ ∃ bytes, IsBlock kind bytes block.rest ∧
      r.Past bytes after ∧ block.offset + block.rest.length = after.offset := by
  unfold readBlock
  by_cases hk : kind.isBlock
  · rw [if_pos hk, bind_eq_ok_iff]
    constructor
    · rintro ⟨length, r₁, hlength, hcontent⟩
      obtain ⟨front, ⟨hw, rfl⟩, hpast₁⟩ := (parses_readLength kind _ _ _).mp hlength
      obtain ⟨start, _, hstart, hcontent⟩ := bind_eq_ok_iff.mp hcontent
      cases hstart
      obtain ⟨content, r₂, htake, hpure⟩ := bind_eq_ok_iff.mp hcontent
      obtain ⟨_, ⟨hlen, rfl⟩, hpast₂⟩ := (parses_take _ _ _ _).mp htake
      obtain ⟨rfl, rfl⟩ := pure_eq_ok_iff.mp hpure
      exact ⟨front ++ content, .mk hk hw hlen.symm, hpast₁.append hpast₂,
        hpast₂.offset_eq.symm⟩
    · rintro ⟨_, @⟨front, _, _, hw, hl⟩, hpast, hoffset⟩
      obtain ⟨r₁, hpast₁, hpast₂⟩ := hpast.exists_of_append
      refine ⟨_, r₁, (parses_readLength kind _ _ _).mpr ⟨front, ⟨hw, rfl⟩, hpast₁⟩, ?_⟩
      refine bind_eq_ok_iff.mpr ⟨r₁, r₁, rfl, bind_eq_ok_iff.mpr ⟨block.rest, after, ?_, ?_⟩⟩
      · exact (parses_take _ _ _ _).mpr ⟨block.rest, ⟨hl.symm, rfl⟩, hpast₂⟩
      · rw [pure_eq_ok_iff]
        refine ⟨?_, rfl⟩
        -- the content ends where the reader stands afterwards, hence it begins behind the length
        have hstart : block.offset = r₁.offset := by
          have := hpast₂.offset_eq
          omega
        rw [← hstart]
  · rw [if_neg hk, bind_eq_ok_iff]
    constructor
    · rintro ⟨start, r₁, -, hfail⟩
      cases hfail
    · rintro ⟨bytes, hblock, -⟩
      exact absurd hblock.isBlock hk

lemma takeNull_eq_true_iff {kind : Kind} {r after : Reader} :
    takeNull kind r = .ok true after ↔ kind = .block1 ∧ r.Past [0] after := by
  obtain ⟨offset, rest⟩ := r
  unfold takeNull
  constructor
  · intro h
    split at h
    · rename_i b rest heq
      dsimp only at heq
      split at h
      · rename_i hb
        cases h
        exact ⟨rfl, by simp [heq, hb], rfl⟩
      · cases h
    · cases h
  · rintro ⟨rfl, hrest, hoffset⟩
    obtain ⟨offset', rest'⟩ := after
    dsimp only at hrest hoffset
    subst hrest hoffset
    rfl

lemma takeNull_eq_false_iff {kind : Kind} {r after : Reader} :
    takeNull kind r = .ok false after ↔
      after = r ∧ ¬(kind = .block1 ∧ r.rest.head? = some 0) := by
  obtain ⟨offset, rest⟩ := r
  unfold takeNull
  split
  · rename_i b rest' heq
    dsimp only at heq
    subst heq
    by_cases hb : b = 0
    · simp [hb]
    · simp [hb, eq_comm]
  · rename_i hother
    constructor
    · rintro ⟨⟩
      refine ⟨rfl, ?_⟩
      rintro ⟨rfl, hhead⟩
      obtain ⟨rest', hrest⟩ := List.head?_eq_some_iff.mp hhead
      exact hother 0 rest' rfl hrest
    · rintro ⟨rfl, -⟩
      rfl

/-- The count of an array, which may not announce more items than bytes follow. -/
lemma readRepeat_eq_ok_iff {kind : Kind} {r after : Reader} {count : Nat} :
    readRepeat kind r = .ok count after ↔ kind = .repeated ∧ ∃ front, front.length = 4 ∧
      count = Bytes.toNat front ∧ r.Past front after ∧ count ≤ after.rest.length := by
  unfold readRepeat
  by_cases hk : kind = .repeated
  · subst hk
    rw [if_pos rfl, bind_eq_ok_iff]
    constructor
    · rintro ⟨start, _, ⟨⟩, hcount⟩
      obtain ⟨n, r₁, hlength, hleft⟩ := bind_eq_ok_iff.mp hcount
      obtain ⟨front, ⟨hw, rfl⟩, hpast⟩ := (parses_readLength _ _ _ _).mp hlength
      obtain ⟨left, _, ⟨⟩, hcheck⟩ := bind_eq_ok_iff.mp hleft
      split at hcheck
      · rename_i hle
        obtain ⟨rfl, rfl⟩ := pure_eq_ok_iff.mp hcheck
        exact ⟨rfl, front, (Option.some.inj hw).symm, rfl, hpast, (hasAtLeast_iff _ _).mp hle⟩
      · cases hcheck
    · rintro ⟨-, front, hlen, rfl, hpast, hle⟩
      refine ⟨r, r, rfl, bind_eq_ok_iff.mpr ⟨_, after, (parses_readLength _ _ _ _).mpr
        ⟨front, ⟨by rw [hlen]; rfl, rfl⟩, hpast⟩, bind_eq_ok_iff.mpr ⟨after, after, rfl, ?_⟩⟩⟩
      rw [if_pos ((hasAtLeast_iff _ _).mpr hle)]
      rfl
  · rw [if_neg hk, bind_eq_ok_iff]
    constructor
    · rintro ⟨start, r₁, -, hfail⟩
      cases hfail
    · rintro ⟨rfl, -⟩
      exact absurd rfl hk

end Reader

end Wire

end SchemaRpc
