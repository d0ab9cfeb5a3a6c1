/-
# Nearest floating-point numbers

The 64-bit floating-point number nearest to a decimal one.  A decimal number is rounded once, as
a whole, however many digits it has.  A reader that multiplies rounded digits by a rounded power of
ten can miss the nearest number by one; for `1.5e40` it gives `1.4999999999999999e+40`.
-/
import SchemaRpc.Floating.Binary

namespace SchemaRpc

namespace Decimal

/-- The number that digits write. -/
def value (digits : List Nat) : Nat := digits.foldl (fun n d => 10 * n + d) 0

/-- The number nearest to what `digits` write times `10 ^ exponent`; none if that is too large.
Numbers beyond all finite ones and numbers that are nearest to zero are recognised by their
first digit's place, so that no large power is computed. -/
def nearest? (negative : Bool) (digits : List Nat) (exponent : Int) : Option Binary64 :=
  let digits := digits.dropWhile (· = 0)
  let place := exponent + digits.length
  if digits = [] ∨ place < -330 then some (Binary64.ofPattern negative 0)
  else if 310 < place then none
  else
    let x := Binary64.ofDecimal negative (value digits) exponent
    if x.isFinite then some x else none

end Decimal

end SchemaRpc
