/-
# Rounding to a binary floating-point format

A format has a number of significand bits and a smallest exponent.  Rounding takes an exact
ratio of natural numbers to the nearest number of the format, a tie to the one with the even
significand, and returns its bit pattern without a sign.
-/

namespace SchemaRpc

namespace Floating

/-- A binary interchange format. -/
structure Format where
  /-- The number of significand bits, the leading one included. -/
  precision : Nat
  /-- The exponent of the smallest positive number. -/
  minExponent : Int
  /-- The exponent field of the infinities. -/
  infinityField : Nat

/-- The 64-bit format. -/
def Format.binary64 : Format := ⟨53, -1074, 2047⟩

/-- The 32-bit format. -/
def Format.binary32 : Format := ⟨24, -149, 255⟩

/-- The quotient rounded to the nearest integer, a tie to the even one. -/
def nearest (num den : Nat) : Nat :=
  let quotient := num / den
  let remainder := num % den
  if 2 * remainder > den ∨ (2 * remainder = den ∧ quotient % 2 = 1) then quotient + 1
  else quotient

/-- The ratio `num / den` divided by `2 ^ exponent`, again as a ratio. -/
def scale (num den : Nat) (exponent : Int) : Nat × Nat :=
  if 0 ≤ exponent then (num, den * Nat.pow 2 exponent.toNat)
  else (num * Nat.pow 2 (-exponent).toNat, den)

/-- The exponent at which a positive ratio has a significand of the format's precision, or the
smallest exponent of the format if that is larger. -/
def Format.exponentOf (f : Format) (num den : Nat) : Int :=
  let low := max f.minExponent (Nat.log2 num - Nat.log2 den - f.precision : Int)
  let (a, b) := scale num den low
  if a / b < Nat.pow 2 f.precision then low else low + 1

/-- The bit pattern, without a sign, of the number of the format nearest to `num / den`;
infinity if that lies beyond the largest one. -/
def Format.round (f : Format) (num den : Nat) : Nat :=
  if num = 0 then 0
  else
    let exponent := f.exponentOf num den
    let (a, b) := scale num den exponent
    let pattern := (exponent - f.minExponent).toNat * Nat.pow 2 (f.precision - 1) + nearest a b
    min pattern (f.infinityField * Nat.pow 2 (f.precision - 1))

end Floating

end SchemaRpc
