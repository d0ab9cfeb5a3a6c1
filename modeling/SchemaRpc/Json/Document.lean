/-
# JSON documents

The syntax tree of a JSON text, before anything is made of it: numbers keep their digits and
objects keep all members in the order of the text, repeated names included.  A string that
names half of a surrogate pair is a correct part of a document but not a text.
-/
import SchemaRpc.Bytes

namespace SchemaRpc

namespace Json

/-- A number as written. -/
structure Numeral where
  negative : Bool
  /-- The digits before the point. -/
  whole : List Nat
  /-- The digits after the point, if there is one. -/
  fraction : Option (List Nat)
  /-- Whether the exponent is negative and its digits, if there is one. -/
  exponent : Option (Bool × List Nat)
deriving DecidableEq

/-- A syntax tree. -/
inductive Document where
  | null
  | bool (b : Bool)
  | number (n : Numeral)
  /-- A string; none if it names half of a surrogate pair. -/
  | string (text : Option String)
  | array (items : List Document)
  | object (members : List (Option String × Document))

namespace Document

/-- Blanks between tokens. -/
def isBlank (c : Char) : Bool := c = ' ' || c = '\n' || c = '\t' || c = '\r'

/-- The text after its leading blanks. -/
def skipBlanks (text : List Char) : List Char := text.dropWhile isBlank

/-- The value of a decimal digit. -/
def digit? (c : Char) : Option Nat :=
  if '0' ≤ c ∧ c ≤ '9' then some (c.toNat - 48) else none

/-- The leading digits of a text and the rest. -/
def digits : List Char → List Nat × List Char
  | [] => ([], [])
  | c :: rest =>
    match digit? c with
    | some d => let (ds, after) := digits rest; (d :: ds, after)
    | none => ([], c :: rest)

/-- The exponent part of a number, if the text goes on with one; a mark without digits is an
error. -/
def exponentPart (text : List Char) : Option (Option (Bool × List Nat) × List Char) :=
  match text with
  | [] => some (none, [])
  | c :: rest =>
    if c = 'e' ∨ c = 'E' then
      let (negative, rest) :=
        match rest with
        | '-' :: after => (true, after)
        | '+' :: after => (false, after)
        | _ => (false, rest)
      match digits rest with
      | ([], _) => none
      | (ds, after) => some (some (negative, ds), after)
    else some (none, c :: rest)

/-- A number: no leading zeros, digits on both sides of a point. -/
def numeral (text : List Char) : Option (Numeral × List Char) :=
  let (negative, text) :=
    match text with
    | '-' :: after => (true, after)
    | _ => (false, text)
  match digits text with
  | ([], _) => none
  | (whole, text) =>
    if whole.head? = some 0 ∧ whole.length ≠ 1 then none
    else
      match text with
      | '.' :: after =>
        match digits after with
        | ([], _) => none
        | (fraction, text) =>
          (exponentPart text).map fun (exponent, text) =>
            (⟨negative, whole, some fraction, exponent⟩, text)
      | _ =>
        (exponentPart text).map fun (exponent, text) =>
          (⟨negative, whole, none, exponent⟩, text)

/-- The part of a string read so far: its characters in reverse, none once half of a surrogate
pair stands alone, and the first half of a pair that waits for the second. -/
structure Partial where
  done : Option (List Char)
  half : Option Nat

/-- A character that is no half of a pair. -/
def Partial.push (p : Partial) (c : Char) : Partial :=
  match p.half with
  | none => ⟨p.done.map (c :: ·), none⟩
  | some _ => ⟨none, none⟩

/-- A character given by a 16-bit number. -/
def Partial.pushUnit (p : Partial) (unit : Nat) : Partial :=
  if 0xD800 ≤ unit ∧ unit ≤ 0xDBFF then
    match p.half with
    | none => ⟨p.done, some unit⟩
    | some _ => ⟨none, some unit⟩
  else if 0xDC00 ≤ unit ∧ unit ≤ 0xDFFF then
    match p.half with
    | some high =>
      ⟨p.done.map (Char.ofNat (0x10000 + (high - 0xD800) * 0x400 + (unit - 0xDC00)) :: ·), none⟩
    | none => ⟨none, none⟩
  else p.push (Char.ofNat unit)

/-- The text that was read, if it is one. -/
def Partial.text (p : Partial) : Option String :=
  if p.half.isSome then none else p.done.map fun cs => String.ofList cs.reverse

/-- The character that a one-letter escape stands for. -/
def escape? (c : Char) : Option Char :=
  if c = '"' ∨ c = '\\' ∨ c = '/' then some c
  else if c = 'b' then some '\x08'
  else if c = 'f' then some '\x0c'
  else if c = 'n' then some '\n'
  else if c = 'r' then some '\r'
  else if c = 't' then some '\t'
  else none

/-- The number written by four hexadecimal digits. -/
def unit? (a b c d : Char) : Option Nat := do
  let high := 16 * (← Bytes.hexValue? a) + (← Bytes.hexValue? b)
  return 256 * high + 16 * (← Bytes.hexValue? c) + (← Bytes.hexValue? d)

/-- The rest of a string after its opening quote. -/
def stringBody (p : Partial) : List Char → Option (Option String × List Char)
  | [] => none
  | '"' :: rest => some (p.text, rest)
  | '\\' :: 'u' :: a :: b :: c :: d :: rest =>
    match unit? a b c d with
    | some unit => stringBody (p.pushUnit unit) rest
    | none => none
  | '\\' :: c :: rest =>
    match escape? c with
    | some c => stringBody (p.push c) rest
    | none => none
  | c :: rest => if c.toNat < 0x20 then none else stringBody (p.push c) rest

/-- A string, its opening quote included. -/
def stringToken : List Char → Option (Option String × List Char)
  | '"' :: rest => stringBody ⟨some [], none⟩ rest
  | _ => none

mutual

/-- A value at the front of a text. Each call uses up fuel, and no more calls nest than the
text has characters, twice over. -/
def value : (fuel : Nat) → List Char → Option (Document × List Char)
  | 0, _ => none
  | fuel + 1, text =>
    match skipBlanks text with
    | 'n' :: 'u' :: 'l' :: 'l' :: rest => some (.null, rest)
    | 't' :: 'r' :: 'u' :: 'e' :: rest => some (.bool true, rest)
    | 'f' :: 'a' :: 'l' :: 's' :: 'e' :: rest => some (.bool false, rest)
    | '"' :: rest => (stringBody ⟨some [], none⟩ rest).map fun (s, rest) => (.string s, rest)
    | '[' :: rest =>
      match skipBlanks rest with
      | ']' :: rest => some (.array [], rest)
      | rest => items fuel [] rest
    | '\x7b' :: rest =>
      match skipBlanks rest with
      | '\x7d' :: rest => some (.object [], rest)
      | rest => members fuel [] rest
    | text => (numeral text).map fun (n, rest) => (.number n, rest)

/-- The items of an array up to its closing bracket; `done` holds earlier ones in reverse. -/
def items : (fuel : Nat) → (done : List Document) → List Char → Option (Document × List Char)
  | 0, _, _ => none
  | fuel + 1, done, text =>
    match value fuel text with
    | none => none
    | some (item, rest) =>
      match skipBlanks rest with
      | ',' :: rest => items fuel (item :: done) rest
      | ']' :: rest => some (.array (item :: done).reverse, rest)
      | _ => none

/-- The members of an object up to its closing brace; `done` holds earlier ones in reverse. -/
def members : (fuel : Nat) → (done : List (Option String × Document)) → List Char →
    Option (Document × List Char)
  | 0, _, _ => none
  | fuel + 1, done, text =>
    match stringToken (skipBlanks text) with
    | none => none
    | some (name, rest) =>
      match skipBlanks rest with
      | ':' :: rest =>
        match value fuel rest with
        | none => none
        | some (member, rest) =>
          match skipBlanks rest with
          | ',' :: rest => members fuel ((name, member) :: done) rest
          | '\x7d' :: rest => some (.object ((name, member) :: done).reverse, rest)
          | _ => none
      | _ => none

end

/-- The syntax tree of a text that is one value, with blanks around it. -/
def parse? (text : String) : Option Document :=
  let chars := text.toList
  match value (2 * chars.length + 2) chars with
  | some (document, rest) => if (skipBlanks rest).isEmpty then some document else none
  | none => none

end Document

end Json

end SchemaRpc
