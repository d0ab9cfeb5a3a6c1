/-
# Shapes of JSON values

A shape is a list of rules, each a keyword with its argument.  Checking a value reports every
rule that it breaks, with the place in the value and the place of the rule in the shape, both
as paths.  A rule about objects, arrays, strings or numbers says nothing about other values.
-/
import SchemaRpc.Json.Text

namespace SchemaRpc

namespace Json

/-- The kinds of values that a rule can ask for; a whole floating-point number is an integer. -/
inductive Kind where
  | object | array | string | boolean | integer
deriving DecidableEq

/-- The name of a kind. -/
def Kind.name : Kind → String
  | .object => "object"
  | .array => "array"
  | .string => "string"
  | .boolean => "boolean"
  | .integer => "integer"

/-- Whether a value is of a kind. -/
def Kind.admits : Kind → Json → Bool
  | .object, .object _ => true
  | .array, .array _ => true
  | .string, .string _ => true
  | .boolean, .bool _ => true
  | .integer, .int _ => true
  | .integer, .float x => x.toInt?.isSome
  | _, _ => false

/-- A set of texts with the expression that describes it. -/
structure Pattern where
  expression : String
  accepts : String → Bool

/-- A rule of a shape. -/
inductive Rule where
  | type (kind : Kind)
  /-- An object has members of these names. -/
  | required (names : List String)
  /-- An object has members of these names only. -/
  | closed (names : List String)
  /-- The member of this name, if an object has it, has this shape. -/
  | property (name : String) (rules : List Rule)
  /-- Every item of an array has this shape. -/
  | items (rules : List Rule)
  | minItems (count : Nat)
  | pattern (p : Pattern)
  | minimum (least : Int)
  | maximum (greatest : Int)
  /-- The value is one of these texts. -/
  | enum (texts : List String)
  /-- The value has exactly one of several shapes, which this test decides. -/
  | oneOf (test : Json → Bool)
  /-- A shape defined elsewhere. -/
  | ref (rules : List Rule)
  /-- A shape that applies unless the value is an object whose member `name` differs from
  `text`; `index` is its position among the rules of this kind. -/
  | whenIs (index : Nat) (name text : String) (rules : List Rule)

/-- A broken rule. -/
structure Violation where
  /-- The place in the value. -/
  instancePath : String
  /-- The place of the rule in the shape. -/
  rulePath : String
  message : String
deriving DecidableEq

/-- The line that reports a violation. -/
def Violation.display (v : Violation) : String :=
  (if v.instancePath = "" then "  (root): " else "  " ++ v.instancePath ++ ": ") ++ v.message

/-- Texts with a comma between any two of them. -/
def commaList (texts : List String) : String := ", ".intercalate texts

/-- The message about members that a closed object must not have. -/
def unexpectedMessage (names : List String) : String :=
  "Additional properties are not allowed (" ++ commaList (names.map fun n => "'" ++ n ++ "'")
    ++ (if names.length = 1 then " was unexpected)" else " were unexpected)")

/-- Whether a number is below a bound; no other value is. -/
def isBelow (least : Int) : Json → Bool
  | .int n => n < least
  | .float x => x.ltInt least
  | _ => false

/-- Whether a number is above a bound; no other value is. -/
def isAbove (greatest : Int) : Json → Bool
  | .int n => greatest < n
  | .float x => x.gtInt greatest
  | _ => false

/-- The value of a member of an object. -/
def member? (name : String) : Json → Option Json
  | .object members => members.find? name
  | _ => none

/-- Whether a value is an object whose member `name` exists and is not `text`. -/
def differs (name text : String) (value : Json) : Bool :=
  match value.member? name with
  | some (.string t) => t != text
  | some _ => true
  | none => false

/-- The rules that a value itself breaks, not counting its members and items. -/
def Rule.broken (rule : Rule) (value : Json) : List String :=
  match rule, value with
  | .type kind, _ =>
    if kind.admits value then [] else [value.compact ++ " is not of type \"" ++ kind.name ++ "\""]
  | .required names, .object members =>
    (names.filter fun n => (members.find? n).isNone).map fun n =>
      "\"" ++ n ++ "\" is a required property"
  | .closed names, .object members =>
    let others := members.keys.filter fun n => !names.contains n
    if others.isEmpty then [] else [unexpectedMessage others]
  | .minItems count, .array elements =>
    if count ≤ elements.length then []
    else [value.compact ++ s!" has less than {count} item" ++ (if count = 1 then "" else "s")]
  | .pattern p, .string text =>
    if p.accepts text then []
    else [value.compact ++ " does not match \"" ++ p.expression ++ "\""]
  | .minimum least, _ =>
    if isBelow least value then [value.compact ++ s!" is less than the minimum of {least}"] else []
  | .maximum greatest, _ =>
    if isAbove greatest value then
      [value.compact ++ s!" is greater than the maximum of {greatest}"]
    else []
  | .enum texts, .string text =>
    if texts.contains text then []
    else [value.compact ++ " is not one of " ++ (Json.array (texts.map .string)).compact]
  | .enum texts, _ =>
    [value.compact ++ " is not one of " ++ (Json.array (texts.map .string)).compact]
  | .oneOf test, _ =>
    if test value then []
    else [value.compact ++ " is not valid under any of the schemas listed in the 'oneOf' keyword"]
  | _, _ => []

/-- The last step of the path of a rule. -/
def Rule.keyword : Rule → String
  | .type _ => "/type"
  | .required _ => "/required"
  | .closed _ => "/additionalProperties"
  | .property name _ => "/properties/" ++ name
  | .items _ => "/items"
  | .minItems _ => "/minItems"
  | .pattern _ => "/pattern"
  | .minimum _ => "/minimum"
  | .maximum _ => "/maximum"
  | .enum _ => "/enum"
  | .oneOf _ => "/oneOf"
  | .ref _ => "/$ref"
  | .whenIs index _ _ _ => s!"/allOf/{index}/then"

/-- The items of an array with their positions. -/
def indexed : Json → List (Nat × Json)
  | .array items => (List.range items.length).zip items
  | _ => []

mutual

/-- The violations of one rule by a value at a place. -/
def Rule.check (place rulePath : String) (value : Json) : Rule → List Violation
  | .property name rules =>
    match value.member? name with
    | some v => checkAll (place ++ "/" ++ name) (rulePath ++ "/properties/" ++ name) v rules
    | none => []
  | .items rules =>
    value.indexed.flatMap fun (i, v) =>
      checkAll (place ++ "/" ++ toString i) (rulePath ++ "/items") v rules
  | .ref rules => checkAll place (rulePath ++ "/$ref") value rules
  | .whenIs index name text rules =>
    if value.differs name text then []
    else checkAll place (rulePath ++ s!"/allOf/{index}/then") value rules
  | rule => (rule.broken value).map fun text => ⟨place, rulePath ++ rule.keyword, text⟩

/-- The violations of several rules by a value at a place. -/
def checkAll (place rulePath : String) (value : Json) : List Rule → List Violation
  | [] => []
  | rule :: more => rule.check place rulePath value ++ checkAll place rulePath value more

end

/-- Violations in the order in which they are reported: by place, then rule, then message. -/
def Violation.before (v w : Violation) : Bool :=
  if v.instancePath = w.instancePath then
    if v.rulePath = w.rulePath then v.message ≤ w.message else v.rulePath < w.rulePath
  else v.instancePath < w.instancePath

/-- All violations of a shape by a value. -/
def violations (shape : List Rule) (value : Json) : List Violation :=
  (checkAll "" "" value shape).mergeSort Violation.before

end Json

end SchemaRpc
