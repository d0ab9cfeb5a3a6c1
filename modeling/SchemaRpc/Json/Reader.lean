/-
# Reading JSON values

The value of a JSON document.  An integer of 64 bits, signed or not, stays an integer; every
other number becomes the nearest floating-point number, negative zero included.  A document nested
deeper than 127 arrays and objects is refused, and so is a number too large for a
floating-point number or a string that is not a text.
-/
import SchemaRpc.Decimal.Nearest
import SchemaRpc.Json.Basic
import SchemaRpc.Json.Document
import SchemaRpc.Value.Primitive

namespace SchemaRpc

namespace Json

/-- The exponent of a numeral; none written is zero. -/
def Numeral.shift (n : Numeral) : Int :=
  match n.exponent with
  | none => 0
  | some (true, digits) => -(Decimal.value digits : Int)
  | some (false, digits) => Decimal.value digits

/-- The integer that a numeral without fraction and exponent writes, if it is one of 64 bits;
minus zero is no integer. -/
def Numeral.integer? (n : Numeral) : Option Int :=
  if n.fraction.isSome ∨ n.exponent.isSome then none
  else
    let whole : Int := Decimal.value n.whole
    if n.negative then if 0 < whole ∧ IntKind.i64.Holds (-whole) then some (-whole) else none
    else if IntKind.u64.Holds whole then some whole else none

/-- The floating-point number nearest to what a numeral writes; none if that is too large. -/
def Numeral.nearest? (n : Numeral) : Option Binary64 :=
  let fraction := n.fraction.getD []
  Decimal.nearest? n.negative (n.whole ++ fraction) (n.shift - fraction.length)

/-- The number that a numeral writes; none if it is too large. -/
def Numeral.toJson? (n : Numeral) : Option Json :=
  match n.integer? with
  | some whole => some (.int whole)
  | none => n.nearest?.map .float

mutual

/-- The value of a syntax tree with at most `depth` arrays and objects inside each other. -/
def ofDocument? : (depth : Nat) → Document → Option Json
  | _, .null => some .null
  | _, .bool b => some (.bool b)
  | _, .number n => n.toJson?
  | _, .string text => text.map .string
  | depth, .array items =>
    match depth with
    | 0 => none
    | depth + 1 => (itemsOfDocuments? depth [] items).map .array
  | depth, .object members =>
    match depth with
    | 0 => none
    | depth + 1 => (membersOfDocuments? depth .nil members).map .object

/-- The values of the items of an array, after those already read in reverse. -/
def itemsOfDocuments? (depth : Nat) (done : List Json) : List Document → Option (List Json)
  | [] => some done.reverse
  | item :: more =>
    match ofDocument? depth item with
    | some value => itemsOfDocuments? depth (value :: done) more
    | none => none

/-- The members of an object, added to those already read. -/
def membersOfDocuments? (depth : Nat) (done : Members) :
    List (Option String × Document) → Option Members
  | [] => some done
  | (some name, member) :: more =>
    match ofDocument? depth member with
    | some value => membersOfDocuments? depth (done.insert name value) more
    | none => none
  | (none, _) :: _ => none

end

/-- How many arrays and objects may be open at one place of a text. -/
def nestingLimit : Nat := 127

/-- The value of a JSON text. -/
def parse? (text : String) : Option Json :=
  (Document.parse? text).bind (ofDocument? nestingLimit)

end Json

end SchemaRpc
