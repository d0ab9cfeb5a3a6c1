/-
# Plain scalars

A scalar without quotes ends before a comment, a colon that a word ends with, a document mark, a
line that is not indented enough, and in a flow collection before an indicator.
-/
import SchemaRpc.Yaml.Folding

namespace SchemaRpc

namespace Yaml

/-- Whether a character has a meaning of its own in flow collections. -/
def isFlowIndicator (c : Char) : Bool :=
  c = ',' || c = '[' || c = ']' || c = '\x7b' || c = '\x7d'

/-- Where a scalar or word ends. -/
inductive WordEnd where
  /-- The word goes on with this character. -/
  | goesOn
  | ends
  /-- A colon stands where it has no meaning. -/
  | strayColon
deriving DecidableEq

/-- Whether a word of a plain scalar ends before the given characters. -/
def wordEnd (inFlow : Bool) : List Char → WordEnd
  | [] => .ends
  | c :: rest =>
    if isSpacing c then .ends
    else if inFlow && c = ':' && rest.head?.any (fun d => isFlowIndicator d || d = '?') then
      .strayColon
    else if (c = ':' && atSpacing rest) || (inFlow && isFlowIndicator c) then .ends
    else .goesOn

/-- The word that stands here, put in reverse before `done`, and the place after it. -/
def plainWord? (inFlow : Bool) : (steps : Nat) → (done : List Char) → Cursor →
    Option (List Char × Cursor)
  | 0, done, c => some (done, c)
  | steps + 1, done, c =>
    match wordEnd inFlow c.rest with
    | .strayColon => none
    | .ends => some (done, c)
    | .goesOn => plainWord? inFlow steps (c.rest.take 1 ++ done) (c.skip 1)

/-- A scalar without quotes. -/
structure PlainScalar where
  text : List Char
  /-- Whether the scalar is followed by the end of its line. -/
  endsLine : Bool
  /-- The place after the scalar and the spacing that follows it. -/
  next : Cursor

/-- The rest of a plain scalar after `done`, which is in reverse, and a gap. -/
def plainFrom? (inFlow : Bool) (indent : Nat) :
    (steps : Nat) → (done : List Char) → Gap → Cursor → Option PlainScalar
  | 0, _, _, _ => none
  | steps + 1, done, gap, c =>
    match if c.atDocumentMark || c.sees '#' then .ends else wordEnd inFlow c.rest with
    | .strayColon => none
    | .ends => some ⟨done.reverse, gap.crossesLines, c⟩
    | .goesOn =>
      match plainWord? inFlow c.steps (gap.text.reverse ++ done) c with
      | none => none
      | some (done, c) =>
        match skipSpacing? (indent ≤ ·) c.steps .empty c with
        | none => none
        | some (gap, c) =>
          if !inFlow && c.column < indent then some ⟨done.reverse, gap.crossesLines, c⟩
          else plainFrom? inFlow indent steps done gap c

/-- The plain scalar that stands here; its further lines are indented by at least `indent`. -/
def plainScalar? (inFlow : Bool) (indent : Nat) (c : Cursor) : Option PlainScalar :=
  plainFrom? inFlow indent c.steps [] .empty c

end Yaml

end SchemaRpc
