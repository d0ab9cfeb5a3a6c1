/-
# Values of YAML scalars

A plain scalar writes null, a truth value or a number if it has the form of one, and a text
otherwise; every other scalar writes a text.  A tag can fix which of these is meant.
-/
import SchemaRpc.Json.Reader
import SchemaRpc.Utf8
import SchemaRpc.Value.Primitive
import SchemaRpc.Yaml.Node

namespace SchemaRpc

namespace Yaml

/-- Whether a text writes null. -/
def isNull (text : String) : Bool := text ∈ ["null", "Null", "NULL", "~"]

/-- The truth value that a text writes. -/
def bool? (text : String) : Option Bool :=
  if text ∈ ["true", "True", "TRUE"] then some true
  else if text ∈ ["false", "False", "FALSE"] then some false
  else none

/-- A text without a leading plus sign. -/
def unsigned : List Char → List Char
  | '+' :: rest => rest
  | text => text

/-- The number that digits of a radix write, after those that write `n`. -/
def digitsValue? (radix n : Nat) : List Char → Option Nat
  | [] => some n
  | c :: rest =>
    match Bytes.hexValue? c with
    | some d => if d < radix then digitsValue? radix (radix * n + d) rest else none
    | none => none

/-- The number that one or more digits of a radix write. -/
def numberIn? (radix : Nat) (digits : List Char) : Option Nat :=
  if digits = [] then none else digitsValue? radix 0 digits

/-- A text without a leading sign. -/
def signless : List Char → List Char
  | '-' :: rest => rest
  | text => unsigned text

/-- Whether a text is a zero with more digits after it. Such a text is no number. -/
def hasLeadingZero : List Char → Bool
  | '0' :: d :: rest => (d :: rest).all Char.isDigit
  | _ => false

/-- The number that a text without a sign writes, by the radix that its first two characters
show. -/
def natural? : List Char → Option Nat
  | '0' :: 'x' :: digits => numberIn? 16 digits
  | '0' :: 'o' :: digits => numberIn? 8 digits
  | '0' :: 'b' :: digits => numberIn? 2 digits
  | text => if hasLeadingZero text then none else numberIn? 10 text

/-- The integer that a text writes. -/
def integer? : List Char → Option Int
  | '-' :: rest => (natural? rest).map fun n => -(n : Int)
  | text => (natural? (unsigned text)).map fun n => (n : Int)

/-- Whether an integer has 64 bits, signed or not. -/
def fits (n : Int) : Bool := IntKind.i64.Holds n || IntKind.u64.Holds n

/-- Whether an integer has 128 bits, signed or not. -/
def fitsTwice (n : Int) : Bool := -(Nat.pow 2 127 : Int) ≤ n && n < (Nat.pow 2 128 : Int)

/-- The decimal numeral of a text without a leading plus sign: digits with at most one point
among them, and perhaps an exponent. -/
def numeral? (text : List Char) : Option Json.Numeral :=
  let (negative, text) :=
    match text with
    | '-' :: rest => (true, rest)
    | _ => (false, text)
  let (whole, text) := Json.Document.digits text
  let (fraction, text) :=
    match text with
    | '.' :: rest =>
      let (fraction, rest) := Json.Document.digits rest
      (some fraction, rest)
    | _ => (none, text)
  if whole = [] ∧ fraction.getD [] = [] then none
  else
    match Json.Document.exponentPart text with
    | some (exponent, []) => some ⟨negative, whole, fraction, exponent⟩
    | _ => none

/-- The words for infinity. -/
def infinities : List (List Char) := [".inf".toList, ".Inf".toList, ".INF".toList]

/-- The words for what is not a number. -/
def undefineds : List (List Char) := [".nan".toList, ".NaN".toList, ".NAN".toList]

/-- The floating-point number that a text writes. The words for infinity and for what is not a
number stand for null. -/
def float? (text : List Char) : Option Json :=
  let isSpecial :=
    undefineds.contains text || infinities.contains (unsigned text) ||
      text.head? = some '-' && infinities.contains text.tail
  if isSpecial then some .null
  else if text.head? = some '+' ∧ text.tail.head? = some '-' then none
  else (numeral? (unsigned text)).bind fun n => n.nearest?.map .float

/-- The value of a plain scalar. An integer of more than 64 bits has none, unless it has more than
128 bits, in which case it is read in another way. -/
def plainValue? (text : String) : Option Json :=
  if text = "" ∨ isNull text then some .null
  else
    match bool? text with
    | some b => some (.bool b)
    | none =>
      match (integer? text.toList).filter fitsTwice with
      | some n => if fits n then some (.int n) else none
      | none =>
        if hasLeadingZero (signless text.toList) then some (.string text)
        else some ((float? text.toList).getD (.string text))

/-- The tags that fix how a scalar is read. -/
inductive CoreTag where
  | null
  | bool
  | int
  | float
deriving DecidableEq

/-- A tag written out in full. -/
def CoreTag.name : CoreTag → Bytes
  | .null => Utf8.encode "tag:yaml.org,2002:null"
  | .bool => Utf8.encode "tag:yaml.org,2002:bool"
  | .int => Utf8.encode "tag:yaml.org,2002:int"
  | .float => Utf8.encode "tag:yaml.org,2002:float"

/-- The core tag of a name. -/
def CoreTag.ofName? (name : Bytes) : Option CoreTag :=
  [CoreTag.null, .bool, .int, .float].find? fun tag => tag.name = name

/-- The value of a text that is read as a core tag says. -/
def CoreTag.value? (tag : CoreTag) (text : String) : Option Json :=
  match tag with
  | .null => if isNull text then some .null else none
  | .bool => (bool? text).map .bool
  | .int => ((integer? text.toList).filter fits).map .int
  | .float => float? text.toList

/-- Whether the name of a tag begins with an exclamation mark, which makes it a tag of the
document's own. -/
def isLocal (name : Bytes) : Bool := name.head? = some 0x21

/-- Whether a node with some properties belongs to a type of the document's own, so that no value
can be made of it. A name that is not text does not make a type. -/
def Properties.isForeign {α : Type} (p : Properties α) : Bool :=
  p.tag.any fun name => isLocal name && (Utf8.firstFault name).isNone

/-- The value of a scalar. -/
def scalarValue? {α : Type} (p : Properties α) (form : ScalarForm) (text : String) : Option Json :=
  if p.isForeign then none
  else
    match p.tag.bind CoreTag.ofName? with
    | some tag => tag.value? text
    | none =>
      if form = .plain ∧ p.tag.all isLocal then plainValue? text else some (.string text)

end Yaml

end SchemaRpc
