/-
# Decimal notation

How the digits and the exponent of a number are laid out: positionally if the decimal point
falls near the digits, with an exponent otherwise.  A `Layout` fixes where positional
writing ends and how the corner cases look.
-/
import SchemaRpc.Decimal.Shortest

namespace SchemaRpc

namespace Decimal

/-- A way of writing finite numbers. -/
structure Layout where
  /-- Positional writing needs the decimal point to stand right of this position. -/
  lowest : Int
  /-- Positional writing needs the decimal point to stand at or left of this position. -/
  highest : Int
  /-- Written after the digits of a whole number. -/
  wholeMark : String
  /-- Written before an exponent that is not negative. -/
  exponentSign : String
  /-- How zero is written. -/
  zero : String
  /-- How negative zero is written. -/
  negativeZero : String

/-- A string of zeros. -/
def zeros (n : Nat) : String := String.ofList (List.replicate n '0')

/-- Digits with a point after the first of them, if more follow. -/
def pointed (digits : String) : String :=
  if digits.length ≤ 1 then digits
  else String.ofList (digits.toList.take 1) ++ "." ++ String.ofList (digits.toList.drop 1)

/-- The text of a positive decimal. -/
def Layout.writeDecimal (layout : Layout) (d : Shortest) : String :=
  let digits := toString d.digits
  let point : Int := d.exponent + digits.length
  if layout.lowest < point ∧ point ≤ layout.highest then
    if point ≤ 0 then "0." ++ zeros (-point).toNat ++ digits
    else if point < digits.length then
      String.ofList (digits.toList.take point.toNat) ++ "."
        ++ String.ofList (digits.toList.drop point.toNat)
    else digits ++ zeros (point - digits.length).toNat ++ layout.wholeMark
  else
    let exponent := point - 1
    pointed digits ++ "e" ++ (if exponent < 0 then "-" else layout.exponentSign)
      ++ toString exponent.natAbs

/-- The text of a finite number. -/
def Layout.write (layout : Layout) (x : Binary64) : String :=
  if x.isZero then (if x.isNegative then layout.negativeZero else layout.zero)
  else (if x.isNegative then "-" else "") ++ layout.writeDecimal (Shortest.of x)

end Decimal

end SchemaRpc
