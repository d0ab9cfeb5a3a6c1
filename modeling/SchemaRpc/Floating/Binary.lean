/-
# Binary floating-point numbers

Numbers of the 64-bit and the 32-bit interchange format, kept as their bit patterns, so that
two numbers are equal as values of the type exactly if their bits agree.  The comparison in
which a NaN differs from itself and the two zeros agree is `ieeeEq`.  All arithmetic is exact
arithmetic on ratios followed by one rounding.
-/
import SchemaRpc.Floating.Rounding

namespace SchemaRpc

/-- A number of the 64-bit format. -/
structure Binary64 where
  /-- The bit pattern: sign, eleven exponent bits, 52 fraction bits. -/
  bits : UInt64
deriving DecidableEq

/-- A number of the 32-bit format. -/
structure Binary32 where
  /-- The bit pattern: sign, eight exponent bits, 23 fraction bits. -/
  bits : UInt32
deriving DecidableEq

namespace Binary64

/-- Whether the sign bit is set. -/
def isNegative (x : Binary64) : Bool := Nat.pow 2 63 ≤ x.bits.toNat

/-- The exponent field. -/
def exponentField (x : Binary64) : Nat := x.bits.toNat / Nat.pow 2 52 % Nat.pow 2 11

/-- The fraction field. -/
def fraction (x : Binary64) : Nat := x.bits.toNat % Nat.pow 2 52

/-- Whether the number is neither infinite nor a NaN. -/
def isFinite (x : Binary64) : Bool := x.exponentField < 2047

/-- Whether the bits are those of a NaN. -/
def isNaN (x : Binary64) : Bool := !x.isFinite && x.fraction ≠ 0

/-- Whether the number is a zero of either sign. -/
def isZero (x : Binary64) : Bool := x.exponentField = 0 && x.fraction = 0

/-- The significand of a finite number as an integer. -/
def significand (x : Binary64) : Nat :=
  if x.exponentField = 0 then x.fraction else Nat.pow 2 52 + x.fraction

/-- The exponent that goes with `significand`. -/
def exponent (x : Binary64) : Int :=
  if x.exponentField = 0 then -1074 else x.exponentField - 1075

/-- The magnitude of a finite number as an exact ratio. -/
def magnitude (x : Binary64) : Nat × Nat :=
  if 0 ≤ x.exponent then (x.significand * Nat.pow 2 x.exponent.toNat, 1)
  else (x.significand, Nat.pow 2 (-x.exponent).toNat)

/-- The number with the given sign and the bit pattern of a magnitude. -/
def ofPattern (negative : Bool) (pattern : Nat) : Binary64 :=
  ⟨UInt64.ofNat (if negative then Nat.pow 2 63 + pattern else pattern)⟩

/-- The number nearest to a signed ratio. -/
def ofRatio (negative : Bool) (num den : Nat) : Binary64 :=
  ofPattern negative (Floating.Format.binary64.round num den)

/-- The number nearest to an integer. -/
def ofInt (n : Int) : Binary64 := ofRatio (n < 0) n.natAbs 1

/-- The number nearest to `digits * 10 ^ exponent`. -/
def ofDecimal (negative : Bool) (digits : Nat) (exponent : Int) : Binary64 :=
  if 0 ≤ exponent then ofRatio negative (digits * Nat.pow 10 exponent.toNat) 1
  else ofRatio negative digits (Nat.pow 10 (-exponent).toNat)

/-- Equality of numbers: a NaN differs from everything, the two zeros agree. -/
def ieeeEq (x y : Binary64) : Bool :=
  !x.isNaN && !y.isNaN && (x.bits == y.bits || (x.isZero && y.isZero))

/-- The integer that a finite number is, if it is one. -/
def toInt? (x : Binary64) : Option Int :=
  if x.isFinite && x.magnitude.1 % x.magnitude.2 = 0 then
    let n : Int := x.magnitude.1 / x.magnitude.2
    some (if x.isNegative then -n else n)
  else none

/-- Whether a finite number is less than an integer. -/
def ltInt (x : Binary64) (n : Int) : Bool :=
  let (num, den) := x.magnitude
  if x.isNegative then -(num : Int) < n * den else num < n * den

/-- Whether a finite number is greater than an integer. -/
def gtInt (x : Binary64) (n : Int) : Bool :=
  let (num, den) := x.magnitude
  if x.isNegative then n * den < -(num : Int) else n * den < num

end Binary64

namespace Binary32

/-- Whether the sign bit is set. -/
def isNegative (x : Binary32) : Bool := Nat.pow 2 31 ≤ x.bits.toNat

/-- The exponent field. -/
def exponentField (x : Binary32) : Nat := x.bits.toNat / Nat.pow 2 23 % Nat.pow 2 8

/-- The fraction field. -/
def fraction (x : Binary32) : Nat := x.bits.toNat % Nat.pow 2 23

/-- Whether the bits are those of a NaN. -/
def isNaN (x : Binary32) : Bool := x.exponentField = 255 && x.fraction ≠ 0

/-- Whether the number is a zero of either sign. -/
def isZero (x : Binary32) : Bool := x.exponentField = 0 && x.fraction = 0

/-- Equality of numbers: a NaN differs from everything, the two zeros agree. -/
def ieeeEq (x y : Binary32) : Bool :=
  !x.isNaN && !y.isNaN && (x.bits == y.bits || (x.isZero && y.isZero))

/-- The number with the given sign and the bit pattern of a magnitude. -/
def ofPattern (negative : Bool) (pattern : Nat) : Binary32 :=
  ⟨UInt32.ofNat (if negative then Nat.pow 2 31 + pattern else pattern)⟩

/-- The significand of a finite number as an integer. -/
def significand (x : Binary32) : Nat :=
  if x.exponentField = 0 then x.fraction else Nat.pow 2 23 + x.fraction

/-- The exponent that goes with `significand`. -/
def exponent (x : Binary32) : Int :=
  if x.exponentField = 0 then -149 else x.exponentField - 150

end Binary32

/-- The 64-bit number of the same value; a NaN stays one and becomes quiet. -/
def Binary32.widen (x : Binary32) : Binary64 :=
  if x.exponentField = 255 then
    Binary64.ofPattern x.isNegative
      (2047 * Nat.pow 2 52 +
        (if x.fraction = 0 then 0
         else Nat.pow 2 51 + x.fraction % Nat.pow 2 22 * Nat.pow 2 29))
  else if 0 ≤ x.exponent then
    Binary64.ofRatio x.isNegative (x.significand * Nat.pow 2 x.exponent.toNat) 1
  else Binary64.ofRatio x.isNegative x.significand (Nat.pow 2 (-x.exponent).toNat)

/-- The nearest 32-bit number; a NaN stays one and becomes quiet. -/
def Binary64.narrow (x : Binary64) : Binary32 :=
  if x.isFinite then
    Binary32.ofPattern x.isNegative (Floating.Format.binary32.round x.magnitude.1 x.magnitude.2)
  else
    Binary32.ofPattern x.isNegative
      (255 * Nat.pow 2 23 +
        (if x.fraction = 0 then 0
         else Nat.pow 2 22 + x.fraction / Nat.pow 2 29 % Nat.pow 2 22))

end SchemaRpc
