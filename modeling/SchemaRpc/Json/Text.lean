/-
# The text of JSON values

Compact JSON text without blanks.  A style fixes how floating-point numbers look and by which
key the members of an object are sorted.
-/
import SchemaRpc.Bytes
import SchemaRpc.Decimal.Notation
import SchemaRpc.Json.Basic

namespace SchemaRpc

namespace Json

/-- A character inside a quoted string: quotes, backslashes and control characters are
escaped, the common ones by a letter, the others by their number. -/
def escaped (c : Char) : List Char :=
  if c = '"' then ['\\', '"']
  else if c = '\\' then ['\\', '\\']
  else if c = '\x08' then ['\\', 'b']
  else if c = '\x0c' then ['\\', 'f']
  else if c = '\n' then ['\\', 'n']
  else if c = '\r' then ['\\', 'r']
  else if c = '\t' then ['\\', 't']
  else if c.toNat < 0x20 then
    ['\\', 'u', '0', '0', Bytes.hexDigit (c.toNat / 16), Bytes.hexDigit (c.toNat % 16)]
  else [c]

/-- A string in quotes. -/
def quoted (text : String) : List Char := '"' :: text.toList.flatMap escaped ++ ['"']

/-- How JSON text is written where there is a choice. -/
structure Style where
  /-- The text of a finite floating-point number. -/
  float : Binary64 → String
  /-- The members of an object are sorted by this key of their names. -/
  rank : String → String

/-- Pieces with a comma between any two of them. -/
def commaSeparated : List (List Char) → List Char
  | [] => []
  | [piece] => piece
  | piece :: more => piece ++ ',' :: commaSeparated more

mutual

/-- The text of a value. -/
def chars (style : Style) : Json → List Char
  | .null => ['n', 'u', 'l', 'l']
  | .bool true => ['t', 'r', 'u', 'e']
  | .bool false => ['f', 'a', 'l', 's', 'e']
  | .int n => (toString n).toList
  | .float x => (style.float x).toList
  | .string text => quoted text
  | .array items => '[' :: commaSeparated (itemChars style items) ++ [']']
  | .object members =>
    '\x7b' :: commaSeparated ((memberChars style members).toList.map (·.2)) ++ ['\x7d']

/-- The texts of the items of an array. -/
def itemChars (style : Style) : List Json → List (List Char)
  | [] => []
  | item :: more => item.chars style :: itemChars style more

/-- The texts of members, sorted by the rank of their names. -/
def memberChars (style : Style) :
    {floor : Option String} → Ascending String Json floor → Ascending String (List Char) none
  | _, .nil => .nil
  | _, .cons name _ value more =>
    (memberChars style more).insert (style.rank name) (quoted name ++ ':' :: value.chars style)

end

/-- The style of messages: members by name, and floating-point numbers that always show a point
or an exponent. -/
def Style.compact : Style where
  float := Decimal.Layout.write ⟨-5, 16, ".0", "+", "0.0", "-0.0"⟩
  rank := id

/-- The style of canonical text: members by their names as quoted, closing quote included, and
whole floating-point numbers without a point. -/
def Style.canonical : Style where
  float := Decimal.Layout.write ⟨-6, 21, "", "+", "0", "0"⟩
  rank := fun name => String.ofList (quoted name)

/-- The compact text of a value. -/
def compact (value : Json) : String := String.ofList (value.chars .compact)

/-- The canonical text of a value: equal values have equal canonical texts. -/
def canonical (value : Json) : String := String.ofList (value.chars .canonical)

end Json

end SchemaRpc
