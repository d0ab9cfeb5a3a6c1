/-
# The shape of package documents

What a JSON document has to look like before it is read as a package.
-/
import SchemaRpc.Json.Shape

namespace SchemaRpc

namespace Package

namespace Shape

open Json (Rule)

/-- Characters that begin an identifier. -/
def isInitial (c : Char) : Bool := ('A' ≤ c && c ≤ 'Z') || ('a' ≤ c && c ≤ 'z') || c = '_'

/-- Characters of an identifier after the first. -/
def isSubsequent (c : Char) : Bool := isInitial c || ('0' ≤ c && c ≤ '9')

/-- Whether characters form an identifier. -/
def isIdentifierChars : List Char → Bool
  | [] => false
  | c :: rest => isInitial c && rest.all isSubsequent

/-- Whether a text is an identifier: a letter or underscore, then letters, digits and
underscores, all of ASCII. -/
def isIdentifier (text : String) : Bool := isIdentifierChars text.toList

/-- The parts of a text between its dots. -/
def dotParts : List Char → List (List Char)
  | [] => [[]]
  | c :: rest =>
    if c = '.' then [] :: dotParts rest
    else
      match dotParts rest with
      | part :: parts => (c :: part) :: parts
      | [] => [[c]]

/-- Whether a text is one or more identifiers with dots between them. -/
def isDotted (text : String) : Bool := (dotParts text.toList).all isIdentifierChars

/-- The shape of an identifier. -/
def identifier : List Rule :=
  [.type .string, .pattern ⟨"^[A-Za-z_][A-Za-z0-9_]*$", isIdentifier⟩]

/-- The shape of a tag. -/
def tag : List Rule := [.type .integer, .minimum 1, .maximum 65535]

/-- The shape of a list of reserved tags. -/
def reserved : List Rule := [.type .array, .items [.ref tag]]

mutual

/-- Whether a value is an identifier or an object with the single member `array`, which is a
type expression again. -/
def isTypeExpr : Json → Bool
  | .string text => isIdentifier text
  | .object members => isArrayOf members
  | _ => false

/-- Whether members are the single member `array` with a type expression. -/
def isArrayOf : {floor : Option String} → Ascending String Json floor → Bool
  | _, .cons name _ item .nil => name = "array" && isTypeExpr item
  | _, _ => false

end

/-- The shape of a type expression. -/
def typeExpr : List Rule := [.oneOf isTypeExpr]

/-- The shape of a field. -/
def field : List Rule := [
  .type .object,
  .required ["name", "type"],
  .closed ["name", "type", "optional", "tag", "default"],
  .property "name" [.ref identifier],
  .property "type" [.ref typeExpr],
  .property "optional" [.type .boolean],
  .property "tag" [.ref tag]]

/-- The shape of a list of fields. -/
def fieldList : List Rule := [.type .array, .items [.ref field]]

/-- The shape of a label of an enum. -/
def label : List Rule := [
  .type .object,
  .required ["label"],
  .closed ["label", "value"],
  .property "label" [.ref identifier],
  .property "value" [.type .integer, .minimum (-2147483648), .maximum 2147483647]]

/-- The shape of a variant of a union. -/
def variant : List Rule := [
  .type .object,
  .required ["name", "type"],
  .closed ["name", "type", "tag"],
  .property "name" [.ref identifier],
  .property "type" [.ref typeExpr],
  .property "tag" [.ref tag]]

/-- The shape of a method of an interface. -/
def method : List Rule := [
  .type .object,
  .required ["name"],
  .closed ["name", "tag", "in", "out", "throw"],
  .property "name" [.ref identifier],
  .property "tag" [.ref tag],
  .property "in" [.ref fieldList],
  .property "out" [.ref fieldList],
  .property "throw" [.ref fieldList]]

/-- The shape of a member of a module. -/
def member : List Rule := [
  .type .object,
  .required ["name", "interface"],
  .closed ["name", "interface", "tag"],
  .property "name" [.ref identifier],
  .property "interface" [.ref identifier],
  .property "tag" [.ref tag]]

/-- The shape of a declaration: what it contains depends on its kind. -/
def declaration : List Rule := [
  .type .object,
  .required ["kind", "name"],
  .property "kind" [.enum ["enum", "union", "struct", "interface", "module"]],
  .property "name" [.ref identifier],
  .whenIs 0 "kind" "enum" [
    .required ["values"],
    .closed ["kind", "name", "values"],
    .property "values" [.type .array, .minItems 1, .items label]],
  .whenIs 1 "kind" "union" [
    .required ["variants"],
    .closed ["kind", "name", "reserved", "variants"],
    .property "reserved" [.ref reserved],
    .property "variants" [.type .array, .items variant]],
  .whenIs 2 "kind" "struct" [
    .closed ["kind", "name", "reserved", "fields"],
    .property "reserved" [.ref reserved],
    .property "fields" [.ref fieldList]],
  .whenIs 3 "kind" "interface" [
    .required ["methods"],
    .closed ["kind", "name", "methods"],
    .property "methods" [.type .array, .items method]],
  .whenIs 4 "kind" "module" [
    .required ["members"],
    .closed ["kind", "name", "members"],
    .property "members" [.type .array, .items member]]]

/-- The shape of a package document. -/
def document : List Rule := [
  .type .object,
  .required ["package"],
  .closed ["package", "declarations"],
  .property "package"
    [.type .string, .pattern ⟨"^[A-Za-z_][A-Za-z0-9_]*(\\.[A-Za-z_][A-Za-z0-9_]*)*$", isDotted⟩],
  .property "declarations" [.type .array, .items [.ref declaration]]]

end Shape

end Package

end SchemaRpc
