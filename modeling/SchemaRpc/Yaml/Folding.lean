/-
# Folding

The spacing between two words of a scalar.  Within a line it counts as it is.  Across lines the
blanks do not count; one line break stands for a space, and of several the first is dropped.
-/
import SchemaRpc.Yaml.Cursor

namespace SchemaRpc

namespace Yaml

/-- The spacing that was passed over. -/
inductive Gap where
  /-- Blanks on one line, in reverse. -/
  | blanks (reversed : List Char)
  /-- The first line break, unless it was escaped, and the following ones in reverse. -/
  | breaks (first : Option Char) (reversed : List Char)
deriving DecidableEq

namespace Gap

/-- No spacing. -/
def empty : Gap := blanks []

/-- Whether the gap goes over the end of a line. -/
def crossesLines : Gap → Bool
  | blanks _ => false
  | breaks .. => true

/-- What a gap stands for. -/
def text : Gap → List Char
  | blanks reversed => reversed.reverse
  | breaks (some '\n') [] => [' ']
  | breaks (some '\n') reversed => reversed.reverse
  | breaks first reversed => first.toList ++ reversed.reverse

/-- Add a blank; at the start of a line it does not count. -/
def addBlank (gap : Gap) (c : Char) : Gap :=
  match gap with
  | blanks reversed => blanks (c :: reversed)
  | breaks first reversed => breaks first reversed

/-- Add a line break; the blanks before it do not count. -/
def addBreak (gap : Gap) (c : Char) : Gap :=
  match gap with
  | blanks _ => breaks (some c) []
  | breaks first reversed => breaks first (c :: reversed)

end Gap

/-- Pass over spacing, which is added to a gap. `tabAllowed` says at which column a tab may stand
at the start of a line. -/
def skipSpacing? (tabAllowed : Nat → Bool) :
    (steps : Nat) → Gap → Cursor → Option (Gap × Cursor)
  | 0, gap, c => some (gap, c)
  | steps + 1, gap, c =>
    match c.rest with
    | [] => some (gap, c)
    | b :: _ =>
      if isBlank b then
        if gap.crossesLines && b = '\t' && !tabAllowed c.column then none
        else skipSpacing? tabAllowed steps (gap.addBlank b) (c.skip 1)
      else
        match c.lineBreak? with
        | some (b, next) => skipSpacing? tabAllowed steps (gap.addBreak b) next
        | none => some (gap, c)

end Yaml

end SchemaRpc
