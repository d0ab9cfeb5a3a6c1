/-
# Quoted scalars

In single quotes a quote is written twice and nothing else is special; in double quotes a
backslash begins an escape.  Both may go over several lines.
-/
import SchemaRpc.Bytes
import SchemaRpc.Yaml.Folding

namespace SchemaRpc

namespace Yaml

/-- The character that a letter after a backslash stands for. -/
def escapedChar? : Char → Option Char
  | '0' => some '\x00'
  | 'a' => some '\x07'
  | 'b' => some '\x08'
  | 't' | '\t' => some '\t'
  | 'n' => some '\n'
  | 'v' => some '\x0b'
  | 'f' => some '\x0c'
  | 'r' => some '\r'
  | 'e' => some '\x1b'
  | ' ' => some ' '
  | '"' => some '"'
  | '/' => some '/'
  | '\\' => some '\\'
  | 'N' => some '\u0085'
  | '_' => some '\u00a0'
  | 'L' => some '\u2028'
  | 'P' => some '\u2029'
  | _ => none

/-- How many hexadecimal digits follow a letter after a backslash. -/
def escapeLength? : Char → Option Nat
  | 'x' => some 2
  | 'u' => some 4
  | 'U' => some 8
  | _ => none

/-- The number that hexadecimal digits write. -/
def hexNumber? (digits : List Char) : Option Nat :=
  digits.foldlM (fun n c => (Bytes.hexValue? c).map (16 * n + ·)) 0

/-- The character of a number, if there is one. -/
def charOf? (n : Nat) : Option Char := if n.isValidChar then some (Char.ofNat n) else none

/-- The character that an escape stands for, given what follows the backslash, and how many
characters follow it. -/
def escape? : List Char → Option (Char × Nat)
  | [] => none
  | c :: rest =>
    match escapedChar? c, escapeLength? c with
    | some char, _ => some (char, 1)
    | none, some length =>
      let digits := rest.take length
      if digits.length = length then
        ((hexNumber? digits).bind charOf?).map fun char => (char, length + 1)
      else none
    | none, none => none

/-- The kind of quotes around a scalar. -/
inductive Quotes where
  | single
  | double
deriving DecidableEq

/-- The character of a kind of quotes. -/
def Quotes.mark : Quotes → Char
  | .single => '\''
  | .double => '"'

/-- The word that stands here, put in reverse before `done`, the gap that it leaves open if it
ends with an escaped line break, and the place after it. -/
def quotedWord? (quotes : Quotes) :
    (steps : Nat) → (done : List Char) → Cursor → Option (List Char × Gap × Cursor)
  | 0, done, c => some (done, .empty, c)
  | steps + 1, done, c =>
    match quotes, c.rest with
    | _, [] => some (done, .empty, c)
    | .single, '\'' :: '\'' :: _ => quotedWord? quotes steps ('\'' :: done) (c.skip 2)
    | .double, '\\' :: rest =>
      match (c.skip 1).lineBreak? with
      | some (_, next) => some (done, .breaks none [], next)
      | none =>
        match escape? rest with
        | none => none
        | some (char, length) => quotedWord? quotes steps (char :: done) (c.skip (1 + length))
    | _, b :: _ =>
      if isSpacing b || b = quotes.mark then some (done, .empty, c)
      else quotedWord? quotes steps (b :: done) (c.skip 1)

/-- The rest of a quoted scalar after `done`, which is in reverse, and the place after the closing
quote. -/
def quotedFrom? (quotes : Quotes) :
    (steps : Nat) → (done : List Char) → Cursor → Option (List Char × Cursor)
  | 0, _, _ => none
  | steps + 1, done, c =>
    if c.atDocumentMark || c.rest.isEmpty then none
    else
      match quotedWord? quotes c.steps done c with
      | none => none
      | some (done, gap, c) =>
        if c.sees quotes.mark then some (done.reverse, c.skip 1)
        else
          match skipSpacing? (fun _ => true) c.steps gap c with
          | none => none
          | some (gap, c) => quotedFrom? quotes steps (gap.text.reverse ++ done) c

/-- The text of the quoted scalar whose opening quote stands here, and the place after its closing
quote. -/
def quotedScalar? (quotes : Quotes) (c : Cursor) : Option (List Char × Cursor) :=
  quotedFrom? quotes c.steps [] (c.skip 1)

end Yaml

end SchemaRpc
