/-
# Numbers written in bytes

Writing a number in as many bytes as it needs and reading it back gives the number, and the
bytes of a width stand for exactly the numbers below its span.  Read in two's complement they
stand for the integers from minus half of the span up to, but not including, half of it.
-/
import Mathlib.Tactic.Common
import SchemaRpc.Bytes

namespace SchemaRpc

namespace Bytes

lemma toNat_lt_span (bytes : Bytes) : toNat bytes < span bytes.length := by
  induction bytes with
  | nil => decide
  | cons b bytes ih =>
    have hb := b.toNat_lt
    rw [toNat_cons, List.length_cons, span_succ]
    omega

/-- A number below the span of a width is read back from that many bytes. -/
lemma toNat_ofNat_of_lt {width n : Nat} (h : n < span width) : toNat (ofNat width n) = n := by
  rw [toNat_ofNat, Nat.mod_eq_of_lt h]

lemma uint32_read_back (bits : UInt32) : UInt32.ofNat (toNat (ofNat 4 bits.toNat)) = bits := by
  have hlt : bits.toNat < span 4 := bits.toNat_lt
  rw [toNat_ofNat_of_lt hlt, UInt32.ofNat_toNat]

lemma uint64_read_back (bits : UInt64) : UInt64.ofNat (toNat (ofNat 8 bits.toNat)) = bits := by
  have hlt : bits.toNat < span 8 := bits.toNat_lt
  rw [toNat_ofNat_of_lt hlt, UInt64.ofNat_toNat]

/-- An integer that fits a width is read back from that many bytes. -/
lemma toInt_ofInt {width : Nat} {n : Int} (hlow : -(span width : Int) ≤ 2 * n)
    (hhigh : 2 * n < span width) : toInt (ofInt width n) = n := by
  have hmod : toNat (ofInt width n) = (n % (span width : Int)).toNat := by
    have hpos : 0 < (span width : Int) := by omega
    have hlt := Int.emod_lt_of_pos n hpos
    have hnonneg := Int.emod_nonneg n (by omega : (span width : Int) ≠ 0)
    refine toNat_ofNat_of_lt ?_
    omega
  rw [toInt, hmod, length_ofInt]
  by_cases hn : 0 ≤ n
  · have hself : n % (span width : Int) = n := Int.emod_eq_of_lt hn (by omega)
    rw [hself, if_pos (by omega)]
    omega
  · have hwrap : n % (span width : Int) = n + span width := by
      rw [← Int.add_emod_right, Int.emod_eq_of_lt (by omega) (by omega)]
    rw [hwrap, if_neg (by omega)]
    omega

/-- The bytes of a width stand for integers that fit the width. -/
lemma toInt_bounds (bytes : Bytes) :
    -(span bytes.length : Int) ≤ 2 * toInt bytes ∧ 2 * toInt bytes < span bytes.length := by
  have hlt := toNat_lt_span bytes
  rw [toInt]
  split <;> omega

end Bytes

end SchemaRpc
