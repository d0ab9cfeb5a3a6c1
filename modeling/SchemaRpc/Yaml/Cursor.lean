/-
# Places in a YAML text

A cursor is a place in a text with what follows it.  Lines and columns matter in YAML: nesting
is shown by indentation, and a key has to stand on one line.  Columns count characters; how far a
key may reach is measured in bytes.
-/

namespace SchemaRpc

namespace Yaml

/-- Whether a character may stand in a YAML text at all: control characters other than tabs and
line breaks may not. -/
def isAllowed (c : Char) : Bool :=
  let n := c.toNat
  n = 0x09 || n = 0x0A || n = 0x0D || (0x20 ≤ n && n ≤ 0x7E) || n = 0x85 ||
    (0xA0 ≤ n && n ≤ 0xFFFD) || 0x10000 ≤ n

/-- Whether a character is a space or a tab. -/
def isBlank (c : Char) : Bool := c = ' ' || c = '\t'

/-- Whether a character breaks a line. -/
def isBreak (c : Char) : Bool :=
  c = '\r' || c = '\n' || c = '\u0085' || c = '\u2028' || c = '\u2029'

/-- Whether a character separates words. -/
def isSpacing (c : Char) : Bool := isBlank c || isBreak c

/-- Whether a character may stand in names of anchors and directives. -/
def isNameChar (c : Char) : Bool :=
  ('0' ≤ c && c ≤ '9') || ('A' ≤ c && c ≤ 'Z') || ('a' ≤ c && c ≤ 'z') || c = '_' || c = '-'

/-- Whether no word goes on here. -/
def atSpacing : List Char → Bool
  | [] => true
  | c :: _ => isSpacing c

/-- Whether three dashes or three points stand here as a word. -/
def atDocumentMark : List Char → Bool
  | '-' :: '-' :: '-' :: rest => atSpacing rest
  | '.' :: '.' :: '.' :: rest => atSpacing rest
  | _ => false

/-- How many bytes characters take in UTF-8. -/
def byteCount (text : List Char) : Nat := text.foldl (fun n c => n + c.utf8Size) 0

/-- A place in a text: what follows, how many bytes precede, how many lines precede, and how
many characters precede on the line. -/
structure Cursor where
  rest : List Char
  offset : Nat
  line : Nat
  column : Nat
  /-- More than there are characters in the text: a bound for the number of steps that each pass
  over a character. -/
  steps : Nat
deriving DecidableEq

namespace Cursor

/-- The start of a text. -/
def ofChars (text : List Char) : Cursor := ⟨text, 0, 0, 0, text.length + 1⟩

/-- The place after `n` characters of the same line. -/
def skip (c : Cursor) (n : Nat) : Cursor :=
  ⟨c.rest.drop n, c.offset + byteCount (c.rest.take n), c.line, c.column + n, c.steps⟩

/-- The characters from here on that satisfy a condition, and the place after them; they are on
the same line. -/
def takeWhile (c : Cursor) (p : Char → Bool) : List Char × Cursor :=
  let taken := c.rest.takeWhile p
  (taken, c.skip taken.length)

/-- The place after the characters from here on that satisfy a condition. -/
def skipWhile (c : Cursor) (p : Char → Bool) : Cursor := (c.takeWhile p).2

/-- Whether a given character stands here. -/
def sees (c : Cursor) (char : Char) : Bool := c.rest.head? = some char

/-- Whether a character of a kind stands here. -/
def seesA (c : Cursor) (p : Char → Bool) : Bool := c.rest.head?.any p

/-- The place after the line break that stands here, and the break as it counts in a text: a
line feed, except that the separators of lines and paragraphs stand for themselves. -/
def lineBreak? (c : Cursor) : Option (Char × Cursor) :=
  match c.rest with
  | '\r' :: '\n' :: rest => some ('\n', ⟨rest, c.offset + 2, c.line + 1, 0, c.steps⟩)
  | b :: rest =>
    if isBreak b then
      let counted := if b = '\u2028' ∨ b = '\u2029' then b else '\n'
      some (counted, ⟨rest, c.offset + b.utf8Size, c.line + 1, 0, c.steps⟩)
    else none
  | [] => none

/-- The place after the line break that stands here, if one does. -/
def skipBreak (c : Cursor) : Cursor :=
  match c.lineBreak? with
  | some (_, next) => next
  | none => c

/-- The place after the comment that stands here, if one does. -/
def skipComment (c : Cursor) : Cursor :=
  if c.sees '#' then c.skipWhile (!isBreak ·) else c

/-- The start of the next line, if nothing but blanks and a comment stands before it. -/
def restOfLine? (c : Cursor) : Option Cursor :=
  let c := (c.skipWhile isBlank).skipComment
  if c.rest.isEmpty || c.seesA isBreak then some c.skipBreak else none

/-- Whether a mark that ends documents stands at the start of a line. -/
def atDocumentMark (c : Cursor) : Bool := c.column = 0 && Yaml.atDocumentMark c.rest

end Cursor

end Yaml

end SchemaRpc
