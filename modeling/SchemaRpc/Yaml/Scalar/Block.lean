/-
# Block scalars

A scalar that is made of whole indented lines.  A literal one keeps its line breaks; in a folded
one a single line break between two lines that do not start with a blank stands for a space.  The
line breaks at the end are kept, dropped or reduced to one, as the header says.
-/
import SchemaRpc.Yaml.Cursor

namespace SchemaRpc

namespace Yaml

/-- What becomes of the line breaks at the end of a block scalar. -/
inductive Chomping where
  /-- All are dropped. -/
  | strip
  /-- The first is kept. -/
  | clip
  /-- All are kept. -/
  | keep
deriving DecidableEq

/-- What a character of a header says about the line breaks at the end. -/
def chomping? : Char → Option Chomping
  | '+' => some .keep
  | '-' => some .strip
  | _ => none

/-- The indentation that a digit of a header announces. -/
def increment? (c : Char) : Option Nat :=
  if '0' ≤ c ∧ c ≤ '9' then some (c.toNat - 48) else none

/-- The header of a block scalar. -/
structure BlockHeader where
  chomping : Chomping
  /-- The announced indentation. -/
  increment : Option Nat
deriving DecidableEq

/-- The header that the given characters write, and its length. -/
def blockHeader : List Char → BlockHeader × Nat
  | [] => (⟨.clip, none⟩, 0)
  | a :: rest =>
    match chomping? a, increment? a with
    | some chomping, _ =>
      match rest.head?.bind increment? with
      | some n => (⟨chomping, some n⟩, 2)
      | none => (⟨chomping, none⟩, 1)
    | none, some n =>
      match rest.head?.bind chomping? with
      | some chomping => (⟨chomping, some n⟩, 2)
      | none => (⟨.clip, some n⟩, 1)
    | none, none => (⟨.clip, none⟩, 0)

/-- Pass over empty lines and the indentation of the next line that is not empty; `indent` is the
indentation if it is known, `widest` the widest of the lines before. Gives the line breaks passed
over, put in reverse before `breaks`, the widest indentation and the place after it. -/
def emptyLines? (indent : Option Nat) :
    (steps : Nat) → (breaks : List Char) → (widest : Nat) → Cursor →
      Option (List Char × Nat × Cursor)
  | 0, breaks, widest, c => some (breaks, widest, c)
  | steps + 1, breaks, widest, c =>
    let spaces := (c.rest.takeWhile (· = ' ')).length
    let c := c.skip (match indent with
      | none => spaces
      | some indent => min spaces (indent - c.column))
    let widest := max widest c.column
    if c.sees '\t' && indent.all (c.column < ·) then none
    else
      match c.lineBreak? with
      | some (b, next) => emptyLines? indent steps (b :: breaks) widest next
      | none => some (breaks, widest, c)

/-- The text of lines so far, in reverse, and what follows it. -/
structure BlockLines where
  done : List Char
  /-- The break after the last line. -/
  lastBreak : Option Char
  /-- The breaks of the empty lines after it, in reverse. -/
  emptyBreaks : List Char
  /-- Whether the last line starts with a blank. -/
  startsBlank : Bool

/-- What stands for the breaks before the next line, in reverse. -/
def BlockLines.joint (folded : Bool) (lines : BlockLines) (nextStartsBlank : Bool) : List Char :=
  if folded && lines.lastBreak = some '\n' && !lines.startsBlank && !nextStartsBlank then
    if lines.emptyBreaks.isEmpty then [' '] else lines.emptyBreaks
  else lines.emptyBreaks ++ lines.lastBreak.toList

/-- The further lines of a block scalar, whose first one starts here if it is indented. -/
def blockLines? (folded : Bool) (indent : Nat) :
    (steps : Nat) → BlockLines → Cursor → Option (BlockLines × Cursor)
  | 0, lines, c => some (lines, c)
  | steps + 1, lines, c =>
    if c.column ≠ indent || c.rest.isEmpty then some (lines, c)
    else
      let startsBlank := c.seesA isBlank
      let (line, c) := c.takeWhile (!isBreak ·)
      let done := line.reverse ++ (lines.joint folded startsBlank ++ lines.done)
      let lastBreak := c.lineBreak?.map (·.1)
      match emptyLines? (some indent) c.steps [] 0 c.skipBreak with
      | none => none
      | some (emptyBreaks, _, c) =>
        blockLines? folded indent steps ⟨done, lastBreak, emptyBreaks, startsBlank⟩ c

/-- The text of a block scalar with its end as the header says. -/
def BlockLines.finish (lines : BlockLines) (chomping : Chomping) : List Char :=
  match chomping with
  | .strip => lines.done.reverse
  | .clip => lines.done.reverse ++ lines.lastBreak.toList
  | .keep => lines.done.reverse ++ lines.lastBreak.toList ++ lines.emptyBreaks.reverse

/-- The text of the block scalar whose indicator stands here, and the place after it; `parent` is
the indentation of the collection around it, none at the top. -/
def blockScalar? (folded : Bool) (parent : Option Nat) (c : Cursor) :
    Option (List Char × Cursor) := do
  let c := c.skip 1
  let (header, length) := blockHeader c.rest
  if header.increment = some 0 then none
  else
    let start ← (c.skip length).restOfLine?
    let announced := header.increment.map (parent.getD 0 + ·)
    let (breaks, widest, c) ← emptyLines? announced start.steps [] 0 start
    let least := match parent with
      | none => 1
      | some parent => parent + 1
    let indent := announced.getD (max widest least)
    let (lines, c) ← blockLines? folded indent c.steps ⟨[], none, breaks, false⟩ c
    return (lines.finish header.chomping, c)

end Yaml

end SchemaRpc
