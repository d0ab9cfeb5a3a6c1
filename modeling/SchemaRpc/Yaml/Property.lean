/-
# Properties and directives

Anchors and aliases, tags, and the directives that may precede a document.
-/
import SchemaRpc.Utf8
import SchemaRpc.Yaml.Cursor
import SchemaRpc.Yaml.Token

namespace SchemaRpc

namespace Yaml

/-- Whether a character may follow the name of an anchor or alias. -/
def endsName : List Char → Bool
  | [] => true
  | c :: _ =>
    isSpacing c || c = '?' || c = ':' || c = ',' || c = ']' || c = '\x7d' || c = '%' || c = '@' ||
      c = '\x60'

/-- The name of the anchor or alias whose indicator stands here, and the place after it. -/
def anchorName? (c : Cursor) : Option (List Char × Cursor) :=
  let (name, c) := (c.skip 1).takeWhile isNameChar
  if name.isEmpty || !endsName c.rest then none else some (name, c)

/-- Whether a character may stand in a tag; in a tag that is written out in full some flow
indicators may, too. -/
def isTagChar (full : Bool) (c : Char) : Bool :=
  isNameChar c || c ∈ ";/?:@&=+$.%!~*'()".toList || (full && (c = ',' || c = '[' || c = ']'))

/-- How many bytes an encoded character has, by its first byte. -/
def encodedLength? (first : Nat) : Option Nat :=
  if first < 0x80 then some 1
  else if 0xC0 ≤ first ∧ first < 0xE0 then some 2
  else if 0xE0 ≤ first ∧ first < 0xF0 then some 3
  else if 0xF0 ≤ first ∧ first < 0xF8 then some 4
  else none

/-- The byte that a percent sign and two digits write. -/
def percentByte? : List Char → Option Nat
  | '%' :: a :: b :: _ => do return 16 * (← Bytes.hexValue? a) + (← Bytes.hexValue? b)
  | _ => none

/-- The bytes of a tag from here on, after those in `done`, which is in reverse. Bytes written
with percent signs make up whole characters, of which `missing` bytes are still to come. -/
def tagBytes? (full : Bool) :
    (steps : Nat) → (missing : Nat) → (done : Bytes) → Cursor → Option (Bytes × Cursor)
  | 0, _, _, _ => none
  | steps + 1, missing + 1, done, c => do
    let byte ← percentByte? c.rest
    if 0x80 ≤ byte ∧ byte < 0xC0 then
      tagBytes? full steps missing (UInt8.ofNat byte :: done) (c.skip 3)
    else none
  | steps + 1, 0, done, c =>
    match c.rest with
    | [] => some (done.reverse, c)
    | '%' :: _ => do
      let byte ← percentByte? c.rest
      let length ← encodedLength? byte
      tagBytes? full steps (length - 1) (UInt8.ofNat byte :: done) (c.skip 3)
    | char :: _ =>
      if isTagChar full char then
        tagBytes? full steps 0 (UInt8.ofNat char.toNat :: done) (c.skip 1)
      else some (done.reverse, c)

/-- The handle that stands here, exclamation marks included, and the place after it. -/
def tagHandle? (c : Cursor) : Option (List Char × Cursor) :=
  if c.sees '!' then
    let (name, c) := (c.skip 1).takeWhile isNameChar
    if c.sees '!' then some ('!' :: name ++ ['!'], c.skip 1) else some ('!' :: name, c)
  else none

/-- Whether a handle ends with an exclamation mark of its own. -/
def isClosedHandle (handle : List Char) : Bool :=
  1 < handle.length && handle.getLast? = some '!'

/-- The tag whose exclamation mark stands here, and the place after it. What looks like a handle
without a closing mark is the begin of the suffix. -/
def tagName? (c : Cursor) : Option (TagName × Cursor) :=
  if (c.skip 1).sees '<' then do
    let (suffix, c) ← tagBytes? true c.steps 0 [] (c.skip 2)
    if suffix.isEmpty || !c.sees '>' then none else some (⟨[], suffix⟩, c.skip 1)
  else do
    let (handle, c) ← tagHandle? c
    let (suffix, c) ← tagBytes? false c.steps 0 [] c
    if isClosedHandle handle then
      if suffix.isEmpty then none else some (⟨handle, suffix⟩, c)
    else
      match handle.tail.map (fun char => UInt8.ofNat char.toNat) ++ suffix with
      | [] => some (⟨[], [UInt8.ofNat '!'.toNat]⟩, c)
      | suffix => some (⟨['!'], suffix⟩, c)

/-- A tag that ends as it should: before spacing, or in a flow collection before a comma. -/
def tag? (inFlow : Bool) (c : Cursor) : Option (TagName × Cursor) := do
  let (name, c) ← tagName? c
  if atSpacing c.rest || (inFlow && c.sees ',') then some (name, c) else none

/-- A part of a version: at most nine digits. -/
def versionNumber? (c : Cursor) : Option (Nat × Cursor) :=
  let (digits, c) := c.takeWhile fun d => '0' ≤ d && d ≤ '9'
  if digits.isEmpty || 9 < digits.length then none
  else some (digits.foldl (fun n d => 10 * n + (d.toNat - 48)) 0, c)

/-- The directive whose percent sign stands here, and the start of the next line. -/
def directive? (c : Cursor) : Option (Token × Cursor) := do
  let (name, c) := (c.skip 1).takeWhile isNameChar
  if !atSpacing c.rest then none
  else if name = "YAML".toList then
    let (major, c) ← versionNumber? (c.skipWhile isBlank)
    if !c.sees '.' then none
    else
      let (minor, c) ← versionNumber? (c.skip 1)
      return (.version major minor, ← c.restOfLine?)
  else if name = "TAG".toList then
    let (handle, c) ← tagHandle? (c.skipWhile isBlank)
    if !(handle = ['!'] || isClosedHandle handle) || !c.seesA isBlank then none
    else
      let (meaning, c) ← tagBytes? true c.steps 0 [] (c.skipWhile isBlank)
      if meaning.isEmpty || !atSpacing c.rest then none
      else return (.handle handle meaning, ← c.restOfLine?)
  else none

end Yaml

end SchemaRpc
