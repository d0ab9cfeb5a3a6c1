/-
# Byte strings

Byte strings as lists, numbers written with the least significant byte first, and the
hexadecimal text of a byte string.
-/

namespace SchemaRpc

/-- A byte string. -/
abbrev Bytes := List UInt8

namespace Bytes

/-- The `width` low bytes of a number, least significant first. -/
def ofNat : (width n : Nat) → Bytes
  | 0, _ => []
  | width + 1, n => UInt8.ofNat n :: ofNat width (n / 256)

/-- The number that a byte string writes, least significant byte first. -/
def toNat (bytes : Bytes) : Nat :=
  bytes.foldr (fun b n => b.toNat + 256 * n) 0

/-- How many numbers `width` bytes can write. -/
def span (width : Nat) : Nat := Nat.pow 256 width

/-- The `width` low bytes of an integer in two's complement, least significant first. -/
def ofInt (width : Nat) (n : Int) : Bytes :=
  ofNat width (n % (span width : Int)).toNat

/-- The integer that a byte string writes in two's complement: the upper half of the numbers
of its width stands for the negative ones. -/
def toInt (bytes : Bytes) : Int :=
  if 2 * toNat bytes < span bytes.length then toNat bytes
  else (toNat bytes : Int) - span bytes.length

/-- The lowercase digit of a number below sixteen. -/
def hexDigit (n : Nat) : Char :=
  if n < 10 then Char.ofNat (48 + n) else Char.ofNat (87 + n)

/-- Two lowercase hexadecimal digits for each byte. -/
def toHex (bytes : Bytes) : String :=
  String.ofList (bytes.flatMap fun b => [hexDigit (b.toNat / 16), hexDigit (b.toNat % 16)])

/-- The number of a hexadecimal digit of either case. -/
def hexValue? (c : Char) : Option Nat :=
  if '0' ≤ c ∧ c ≤ '9' then some (c.toNat - 48)
  else if 'a' ≤ c ∧ c ≤ 'f' then some (c.toNat - 87)
  else if 'A' ≤ c ∧ c ≤ 'F' then some (c.toNat - 55)
  else none

/-- The bytes that pairs of hexadecimal digits write, after those already read in reverse. -/
def ofHexDigits? (done : Bytes) : List Char → Option Bytes
  | [] => some done.reverse
  | [_] => none
  | a :: b :: rest =>
    match hexValue? a, hexValue? b with
    | some high, some low => ofHexDigits? (UInt8.ofNat (16 * high + low) :: done) rest
    | _, _ => none

/-- The byte string of a hexadecimal text. -/
def ofHex? (text : String) : Option Bytes := ofHexDigits? [] text.toList

@[simp] theorem length_ofNat (width n : Nat) : (ofNat width n).length = width := by
  induction width generalizing n with
  | zero => rfl
  | succ width ih => simp [ofNat, ih]

@[simp] theorem length_ofInt (width : Nat) (n : Int) : (ofInt width n).length = width := by
  simp [ofInt]

@[simp] theorem toNat_nil : toNat [] = 0 := rfl

@[simp] theorem toNat_cons (b : UInt8) (bytes : Bytes) :
    toNat (b :: bytes) = b.toNat + 256 * toNat bytes := rfl

/-- Another byte multiplies the span by 256. -/
theorem span_succ (width : Nat) : span (width + 1) = 256 * span width := Nat.mul_comm _ _

/-- Reading the low bytes of a number gives the number modulo the span of their width. -/
theorem toNat_ofNat (width n : Nat) : toNat (ofNat width n) = n % span width := by
  induction width generalizing n with
  | zero =>
    have h : span 0 = 1 := rfl
    rw [ofNat, toNat_nil, h, Nat.mod_one]
  | succ width ih =>
    have h : (UInt8.ofNat n).toNat = n % 256 := by simp [UInt8.toNat_ofNat']
    rw [ofNat, toNat_cons, ih, h, span_succ, Nat.mod_mul]

end Bytes

end SchemaRpc
