/-
# JSON values

A JSON value as programs see it: numbers are integers or 64-bit floating-point numbers, and an
object maps each name to one value.  The members of an object are kept in the order of their
names, so equal objects are equal values whatever order they were written in.
-/
import SchemaRpc.Ascending
import SchemaRpc.Floating.Binary

namespace SchemaRpc

/-- A JSON value. -/
inductive Json where
  | null
  | bool (b : Bool)
  | int (n : Int)
  | float (x : Binary64)
  | string (text : String)
  | array (items : List Json)
  | object (members : Ascending String Json none)
deriving Inhabited

namespace Json

/-- The members of an object by name. -/
abbrev Members := Ascending String Json none

/-- The word for the kind of a value. -/
def kindName : Json → String
  | .null => "null"
  | .bool _ => "boolean"
  | .int _ => "number"
  | .float _ => "number"
  | .string _ => "string"
  | .array _ => "array"
  | .object _ => "object"

/-- The object with the given members; of two members with one name the later counts. -/
def ofMembers (members : List (String × Json)) : Json := .object (.ofList members)

end Json

end SchemaRpc
