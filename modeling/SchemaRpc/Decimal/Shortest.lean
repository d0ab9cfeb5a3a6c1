/-
# The shortest decimal that reads back

Every finite 64-bit number is the rounding of an interval of reals around it; the ends belong
to the interval exactly if the significand is even.  Among the decimals in the interval the
ones with the fewest digits count, and of these the one nearest to the number, a tie going to
the even last digit.  Only the two neighbours of the number on the grid of `n`-digit decimals
have to be looked at: if a point of the grid lies in the interval, so does one of them.
-/
import SchemaRpc.Floating.Binary

namespace SchemaRpc

namespace Decimal

/-- A positive decimal: `digits * 10 ^ exponent`, the last digit not zero. -/
structure Shortest where
  digits : Nat
  exponent : Int
deriving DecidableEq

/-- How many decimal digits a positive number has. -/
def digitCount (n : Nat) : Nat := (Nat.toDigits 10 n).length

/-- The exponent of the leading digit of a positive ratio. -/
def leadingExponent (num den : Nat) : Int :=
  if den ≤ num then digitCount (num / den) - 1
  else -(digitCount ((den + num - 1) / num - 1) : Int)

/-- The interval of reals that round to a number, in quarters of its last place: the ends, the
number itself, whether the ends belong to it, and the exponent of a quarter. -/
structure Interval where
  low : Nat
  middle : Nat
  high : Nat
  closed : Bool
  exponent : Int

/-- The interval around a finite number. Below a power of two the numbers lie twice as close. -/
def Interval.of (x : Binary64) : Interval :=
  let m := x.significand
  let gap := if x.fraction = 0 ∧ 1 < x.exponentField then 1 else 2
  ⟨4 * m - gap, 4 * m, 4 * m + 2, m % 2 = 0, x.exponent - 2⟩

/-- The decimal of the grid with step `10 ^ step` that lies in the interval next to its middle. -/
def Interval.onGrid? (i : Interval) (step : Int) : Option Nat :=
  let unit := Nat.pow 10 step.toNat * Nat.pow 2 (-i.exponent).toNat
  let quarter := Nat.pow 2 i.exponent.toNat * Nat.pow 10 (-step).toNat
  let inside := fun d : Nat =>
    if i.closed then i.low * quarter ≤ d * unit ∧ d * unit ≤ i.high * quarter
    else i.low * quarter < d * unit ∧ d * unit < i.high * quarter
  let below := i.middle * quarter / unit
  let above := below + 1
  if inside below then
    if inside above then
      let down := i.middle * quarter - below * unit
      let up := above * unit - i.middle * quarter
      if down < up ∨ (down = up ∧ below % 2 = 0) then some below else some above
    else some below
  else if inside above then some above
  else none

/-- Drop trailing zeros of a positive number, at most `fuel` of them. -/
def strip : (fuel digits : Nat) → Int → Shortest
  | 0, digits, exponent => ⟨digits, exponent⟩
  | fuel + 1, digits, exponent =>
    if digits % 10 = 0 then strip fuel (digits / 10) (exponent + 1) else ⟨digits, exponent⟩

/-- Try grids of more and more digits, `fuel` of them. -/
def Interval.search (i : Interval) (leading : Int) : (fuel count : Nat) → Shortest
  | 0, _ => ⟨i.middle, 0⟩
  | fuel + 1, count =>
    let step := leading - count
    match i.onGrid? step with
    | some digits => strip 20 digits step
    | none => i.search leading fuel (count + 1)

/-- The shortest decimal that reads back as a finite number other than zero; seventeen digits
always do. -/
def Shortest.of (x : Binary64) : Shortest :=
  let (num, den) := x.magnitude
  (Interval.of x).search (leadingExponent num den) 18 0

end Decimal

end SchemaRpc
