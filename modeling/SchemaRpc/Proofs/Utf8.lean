/-
# UTF-8 reads back

Strict reading accepts exactly the bytes of texts and gives the text that they are the bytes
of.  The step from bytes to a character and back goes through a description of the byte
sequences that encode a number: reading finds one at the front exactly when it is there, and it
is what the character of that number is written as.
-/
import Mathlib.Tactic.Common
import SchemaRpc.Utf8

namespace SchemaRpc

namespace Utf8

/-- A first byte and the bytes after it that together encode a number. -/
inductive Sequence : UInt8 → Bytes → Nat → Prop where
  | one {a : UInt8} (ha : a.toNat < 0x80) : Sequence a [] a.toNat
  | two {a b : UInt8} (hlow : 0xC2 ≤ a.toNat) (hhigh : a.toNat < 0xE0) (hb : isContinuation b) :
    Sequence a [b] (a.toNat % 32 * 64 + payload b)
  | three {a b c : UInt8} (hlow : 0xE0 ≤ a.toNat) (hhigh : a.toNat < 0xF0) (hb : secondFits a b)
    (hc : isContinuation c) :
    Sequence a [b, c] ((a.toNat % 16 * 64 + payload b) * 64 + payload c)
  | four {a b c d : UInt8} (hlow : 0xF0 ≤ a.toNat) (hhigh : a.toNat < 0xF5)
    (hb : secondFits a b) (hc : isContinuation c) (hd : isContinuation d) :
    Sequence a [b, c, d]
      (((a.toNat % 8 * 64 + payload b) * 64 + payload c) * 64 + payload d)

lemma isContinuation_iff {b : UInt8} :
    isContinuation b ↔ 0x80 ≤ b.toNat ∧ b.toNat ≤ 0xBF := by
  simp [isContinuation]

/-- The four first bytes that narrow the range of the second one. -/
lemma secondFits_iff {a b : UInt8} : secondFits a b ↔ 0x80 ≤ b.toNat ∧ b.toNat ≤ 0xBF ∧
    (a.toNat = 0xE0 → 0xA0 ≤ b.toNat) ∧ (a.toNat = 0xED → b.toNat ≤ 0x9F) ∧
    (a.toNat = 0xF0 → 0x90 ≤ b.toNat) ∧ (a.toNat = 0xF4 → b.toNat ≤ 0x8F) := by
  unfold secondFits isContinuation
  split <;> [skip; split <;> [skip; split <;> [skip; split]]] <;>
    simp only [Bool.and_eq_true, decide_eq_true_eq] <;> omega

/-! ## Sequences and the front of a byte string -/

lemma front_of_sequence {first : UInt8} {more : Bytes} {n : Nat} (h : Sequence first more n)
    (rest : Bytes) : front first (more ++ rest) = .char (Char.ofNat n) more.length := by
  cases h with
  | one ha =>
    unfold front
    rw [if_pos ha]
    rfl
  | two hlow hhigh hb =>
    unfold front
    rw [if_neg (by omega), if_neg (by omega), if_pos hhigh]
    simp [hb]
  | three hlow hhigh hb hc =>
    unfold front
    rw [if_neg (by omega), if_neg (by omega), if_neg (by omega), if_pos hhigh]
    simp [hb, hc]
  | four hlow hhigh hb hc hd =>
    unfold front
    rw [if_neg (by omega), if_neg (by omega), if_neg (by omega), if_neg (by omega), if_pos hhigh]
    simp [hb, hc, hd]

lemma sequence_of_front {first : UInt8} {rest : Bytes} {c : Char} {length : Nat}
    (h : front first rest = .char c length) : ∃ more back n, rest = more ++ back ∧
      more.length = length ∧ Sequence first more n ∧ c = Char.ofNat n := by
  unfold front at h
  split at h
  · cases h
    exact ⟨[], rest, _, rfl, rfl, .one (by assumption), rfl⟩
  split at h
  · cases h
  split at h
  · cases rest with
    | nil => cases h
    | cons b back =>
      dsimp only at h
      split at h
      · cases h
        exact ⟨[b], back, _, rfl, rfl, .two (by omega) (by omega) (by assumption), rfl⟩
      · cases h
  split at h
  · cases rest with
    | nil => cases h
    | cons b rest =>
      dsimp only at h
      split at h
      · cases rest with
        | nil => cases h
        | cons c' back =>
          dsimp only at h
          split at h
          · cases h
            exact ⟨[b, c'], back, _, rfl, rfl,
              .three (by omega) (by omega) (by assumption) (by assumption), rfl⟩
          · cases h
      · cases h
  split at h
  · cases rest with
    | nil => cases h
    | cons b rest =>
      dsimp only at h
      split at h
      · cases rest with
        | nil => cases h
        | cons c' rest =>
          dsimp only at h
          split at h
          · cases rest with
            | nil => cases h
            | cons d back =>
              dsimp only at h
              split at h
              · cases h
                exact ⟨[b, c', d], back, _, rfl, rfl, .four (by omega) (by omega)
                  (by assumption) (by assumption) (by assumption), rfl⟩
              · cases h
          · cases h
      · cases h
  · cases h

/-! ## Sequences and characters -/

lemma toNat_val_ofNat {n : Nat} (h : n.isValidChar) : (Char.ofNat n).val.toNat = n := by
  unfold Char.ofNat
  rw [dif_pos h]
  rfl

lemma ofNat_eq_of_toNat {n : Nat} {b : UInt8} (h : n = b.toNat) : UInt8.ofNat n = b := by
  rw [h, UInt8.ofNat_toNat]

/-- A sequence is what the character of its number is written as. -/
lemma encode_of_sequence {first : UInt8} {more : Bytes} {n : Nat} (h : Sequence first more n) :
    String.utf8EncodeChar (Char.ofNat n) = first :: more := by
  cases h with
  | one ha =>
    have hvalid : first.toNat.isValidChar := Or.inl (by omega)
    simp only [String.utf8EncodeChar, toNat_val_ofNat hvalid]
    rw [if_pos (by omega), ofNat_eq_of_toNat rfl]
  | @two b hlow hhigh hb =>
    rw [isContinuation_iff] at hb
    have hvalid : (first.toNat % 32 * 64 + payload b).isValidChar :=
      Or.inl (by unfold payload; omega)
    simp only [String.utf8EncodeChar, toNat_val_ofNat hvalid]
    unfold payload
    rw [if_neg (by omega), if_pos (by omega), ofNat_eq_of_toNat (b := first) (by omega),
      ofNat_eq_of_toNat (b := b) (by omega)]
  | @three b c hlow hhigh hb hc =>
    rw [secondFits_iff] at hb
    rw [isContinuation_iff] at hc
    -- the bounds of the second byte keep the number off the surrogates
    have hvalid : ((first.toNat % 16 * 64 + payload b) * 64 + payload c).isValidChar := by
      unfold payload
      by_cases hed : first.toNat < 0xEE
      · exact Or.inl (by omega)
      · exact Or.inr ⟨by omega, by omega⟩
    simp only [String.utf8EncodeChar, toNat_val_ofNat hvalid]
    unfold payload
    rw [if_neg (by omega), if_neg (by omega), if_pos (by omega),
      ofNat_eq_of_toNat (b := first) (by omega), ofNat_eq_of_toNat (b := b) (by omega),
      ofNat_eq_of_toNat (b := c) (by omega)]
  | @four b c d hlow hhigh hb hc hd =>
    rw [secondFits_iff] at hb
    rw [isContinuation_iff] at hc hd
    have hvalid : (((first.toNat % 8 * 64 + payload b) * 64 + payload c) * 64 +
        payload d).isValidChar := by
      unfold payload
      exact Or.inr ⟨by omega, by omega⟩
    simp only [String.utf8EncodeChar, toNat_val_ofNat hvalid]
    unfold payload
    rw [if_neg (by omega), if_neg (by omega), if_neg (by omega),
      ofNat_eq_of_toNat (b := first) (by omega), ofNat_eq_of_toNat (b := b) (by omega),
      ofNat_eq_of_toNat (b := c) (by omega), ofNat_eq_of_toNat (b := d) (by omega)]

lemma toNat_ofNat_of_lt {n : Nat} (h : n < 256) : (UInt8.ofNat n).toNat = n := by
  rw [UInt8.toNat_ofNat']
  omega

/-- Every character is written as a sequence. -/
lemma exists_sequence (c : Char) : ∃ first more n,
    String.utf8EncodeChar c = first :: more ∧ Sequence first more n ∧ Char.ofNat n = c := by
  have hself : Char.ofNat c.val.toNat = c := Char.ofNat_toNat c
  have hvalid : c.val.toNat < 0xD800 ∨ 0xDFFF < c.val.toNat ∧ c.val.toNat < 0x110000 := c.valid
  generalize hv : c.val.toNat = v at hself hvalid
  simp only [String.utf8EncodeChar, hv]
  by_cases h1 : v ≤ 0x7F
  · have ha := toNat_ofNat_of_lt (by omega : v < 256)
    refine ⟨_, _, _, if_pos h1, .one (by omega), ?_⟩
    rw [ha, hself]
  by_cases h2 : v ≤ 0x7FF
  · have ha := toNat_ofNat_of_lt (by omega : v / 64 % 0x20 + 0xC0 < 256)
    have hb := toNat_ofNat_of_lt (by omega : v % 0x40 + 0x80 < 256)
    rw [if_neg h1]
    refine ⟨_, _, _, if_pos h2, .two (by omega) (by omega) ?_, ?_⟩
    · rw [isContinuation_iff]
      omega
    · rw [← hself]
      congr 1
      unfold payload
      omega
  by_cases h3 : v ≤ 0xFFFF
  · have ha := toNat_ofNat_of_lt (by omega : v / 4096 % 0x10 + 0xE0 < 256)
    have hb := toNat_ofNat_of_lt (by omega : v / 64 % 0x40 + 0x80 < 256)
    have hc := toNat_ofNat_of_lt (by omega : v % 0x40 + 0x80 < 256)
    rw [if_neg h1, if_neg h2]
    refine ⟨_, _, _, if_pos h3, .three (by omega) (by omega) ?_ ?_, ?_⟩
    · rw [secondFits_iff]
      omega
    · rw [isContinuation_iff]
      omega
    · rw [← hself]
      congr 1
      unfold payload
      omega
  · have ha := toNat_ofNat_of_lt (by omega : v / 262144 % 0x08 + 0xF0 < 256)
    have hb := toNat_ofNat_of_lt (by omega : v / 4096 % 0x40 + 0x80 < 256)
    have hc := toNat_ofNat_of_lt (by omega : v / 64 % 0x40 + 0x80 < 256)
    have hd := toNat_ofNat_of_lt (by omega : v % 0x40 + 0x80 < 256)
    rw [if_neg h1, if_neg h2]
    refine ⟨_, _, _, if_neg h3, .four (by omega) (by omega) ?_ ?_ ?_, ?_⟩
    · rw [secondFits_iff]
      omega
    · rw [isContinuation_iff]
      omega
    · rw [isContinuation_iff]
      omega
    · rw [← hself]
      congr 1
      unfold payload
      omega

/-- Reading a character off the front is taking the bytes that it is written as. -/
theorem front_eq_char_iff {first : UInt8} {rest : Bytes} {c : Char} {length : Nat} :
    front first rest = .char c length ↔ ∃ more back, rest = more ++ back ∧
      more.length = length ∧ String.utf8EncodeChar c = first :: more := by
  constructor
  · intro h
    obtain ⟨more, back, n, rfl, hlen, hseq, rfl⟩ := sequence_of_front h
    exact ⟨more, back, rfl, hlen, encode_of_sequence hseq⟩
  · rintro ⟨more, back, rfl, rfl, hc⟩
    obtain ⟨first', more', n, hc', hseq, rfl⟩ := exists_sequence c
    obtain ⟨rfl, rfl⟩ := List.cons.inj (hc'.symm.trans hc)
    exact front_of_sequence hseq back

/-! ## Whole texts -/

lemma firstFaultFrom_append (index : Nat) (more rest : Bytes) :
    firstFaultFrom index more.length (more ++ rest) =
      firstFaultFrom (index + more.length) 0 rest := by
  induction more generalizing index with
  | nil => rfl
  | cons b more ih =>
    rw [List.cons_append, List.length_cons, firstFaultFrom, ih]
    congr 1
    omega

lemma charsFrom_append (done : List Char) (more rest : Bytes) :
    charsFrom done more.length (more ++ rest) = charsFrom done 0 rest := by
  induction more with
  | nil => rfl
  | cons b more ih => rw [List.cons_append, List.length_cons, charsFrom, ih]

/-- The step from one character to the next, for both ways of reading. -/
lemma step_char (index : Nat) (done : List Char) (c : Char) (rest : Bytes) :
    firstFaultFrom index 0 (String.utf8EncodeChar c ++ rest) =
        firstFaultFrom (index + (String.utf8EncodeChar c).length) 0 rest ∧
      charsFrom done 0 (String.utf8EncodeChar c ++ rest) = charsFrom (c :: done) 0 rest := by
  obtain ⟨first, more, n, hc, hseq, rfl⟩ := exists_sequence c
  rw [hc, List.cons_append, firstFaultFrom, charsFrom, front_of_sequence hseq rest]
  dsimp only
  rw [firstFaultFrom_append, charsFrom_append, List.length_cons, Nat.add_right_comm,
    Nat.add_assoc]
  exact ⟨rfl, rfl⟩

lemma firstFaultFrom_flatMap (index : Nat) (chars : List Char) :
    firstFaultFrom index 0 (chars.flatMap String.utf8EncodeChar) = none := by
  induction chars generalizing index with
  | nil => rfl
  | cons c chars ih => rw [List.flatMap_cons, (step_char index [] c _).1, ih]

lemma charsFrom_flatMap (done chars : List Char) :
    charsFrom done 0 (chars.flatMap String.utf8EncodeChar) = chars.reverse ++ done := by
  induction chars generalizing done with
  | nil => rfl
  | cons c chars ih =>
    rw [List.flatMap_cons, (step_char 0 done c _).2, ih, List.reverse_cons, List.append_assoc]
    rfl

/-- Bytes without a fault are the bytes of some characters. -/
lemma exists_chars_of_firstFaultFrom {index : Nat} {bytes : Bytes}
    (h : firstFaultFrom index 0 bytes = none) :
    ∃ chars : List Char, bytes = chars.flatMap String.utf8EncodeChar := by
  -- Reading consumes a whole character at a time, so the induction is on the length.
  induction hlen : bytes.length using Nat.strongRecOn generalizing index bytes with
  | ind n ih =>
    cases bytes with
    | nil => exact ⟨[], rfl⟩
    | cons first rest =>
      rw [firstFaultFrom] at h
      split at h
      · rename_i c length hfront
        obtain ⟨more, back, rfl, rfl, hc⟩ := front_eq_char_iff.mp hfront
        rw [firstFaultFrom_append] at h
        simp only [List.length_cons, List.length_append] at hlen
        obtain ⟨chars, rfl⟩ := ih back.length (by omega) h rfl
        exact ⟨c :: chars, by rw [List.flatMap_cons, hc, List.cons_append]⟩
      · cases h
      · cases h

/-- **Texts and their bytes.**  Bytes read as a text exactly when they are its bytes. -/
theorem decode_eq_ok_iff {bytes : Bytes} {text : String} :
    decode bytes = .ok text ↔ bytes = encode text := by
  have hread (chars : List Char) : decodeLossy (chars.flatMap String.utf8EncodeChar) =
      String.ofList chars := by
    rw [decodeLossy, charsFrom_flatMap, List.append_nil, List.reverse_reverse]
  unfold decode
  constructor
  · intro h
    split at h
    · cases h
    · rename_i hfault
      obtain ⟨chars, rfl⟩ := exists_chars_of_firstFaultFrom hfault
      rw [hread] at h
      obtain rfl := Except.ok.inj h
      rw [encode, String.toList_ofList]
  · rintro rfl
    rw [firstFault, encode, firstFaultFrom_flatMap, hread, String.ofList_toList]

/-- The bytes of a text are read as the text, also when faults would be passed over. -/
lemma decodeLossy_encode (text : String) : decodeLossy (encode text) = text := by
  have h : decode (encode text) = .ok text := decode_eq_ok_iff.mpr rfl
  rw [decode] at h
  split at h
  · cases h
  · exact Except.ok.inj h

end Utf8

end SchemaRpc
