/-
# The tokens of a YAML text

The scanner goes through a text token by token.  It keeps the indentations of the open block
collections, and for each open flow collection the place where a key may have begun: only a colon
after it tells that it was one, and then the token for the key is put in front of it.  A key that
may have begun is given up at the end of its line or after 1024 bytes; where the indentation
requires a key, that is an error.
-/
import SchemaRpc.Yaml.Property
import SchemaRpc.Yaml.Scalar.Block
import SchemaRpc.Yaml.Scalar.Plain
import SchemaRpc.Yaml.Scalar.Quoted

namespace SchemaRpc

namespace Yaml

/-- A place where a key may have begun. -/
structure PossibleKey where
  /-- Whether nothing but a key can stand there. -/
  required : Bool
  /-- How many tokens precede it. -/
  position : Nat
  start : Cursor

/-- What the scanner keeps between tokens. -/
structure Scanner where
  cursor : Cursor
  /-- The tokens so far, in reverse. -/
  tokens : List Token
  /-- How many tokens there are so far. -/
  count : Nat
  /-- The indentation of the innermost block collection, if one is open. -/
  indent : Option Nat
  /-- The indentations of the block collections around it. -/
  outerIndents : List (Option Nat)
  /-- Where a key may have begun in the innermost collection. -/
  key : Option PossibleKey
  /-- The same for the collections around it; as many as flow collections are open. -/
  outerKeys : List (Option PossibleKey)
  /-- Whether a key may begin here. -/
  keyAllowed : Bool
  /-- Whether the end of the text has been reached. -/
  finished : Bool

namespace Scanner

/-- The start of a text. -/
def start (text : List Char) : Scanner :=
  ⟨.ofChars text, [], 0, none, [], none, [], true, false⟩

/-- Whether a flow collection is open. -/
def inFlow (s : Scanner) : Bool := !s.outerKeys.isEmpty

/-- Add a token. -/
def push (s : Scanner) (token : Token) : Scanner :=
  { s with tokens := token :: s.tokens, count := s.count + 1 }

/-- Put a token behind the first `position` tokens. -/
def insertAt (s : Scanner) (position : Nat) (token : Token) : Scanner :=
  let later := s.count - position
  { s with
    tokens := s.tokens.take later ++ token :: s.tokens.drop later
    count := s.count + 1 }

/-- Go on at another place. -/
def moveTo (s : Scanner) (cursor : Cursor) : Scanner := { s with cursor := cursor }

/-- Add a token for the next `length` characters. -/
def pushIndicator (s : Scanner) (token : Token) (length : Nat) : Scanner :=
  (s.push token).moveTo (s.cursor.skip length)

/-- Say whether a key may begin next. -/
def allowKey (s : Scanner) (allowed : Bool) : Scanner := { s with keyAllowed := allowed }

/-- Give up a key that may have begun, unless it is required. -/
def giveUp? : Option PossibleKey → Option (Option PossibleKey)
  | some key => if key.required then none else some none
  | none => some none

/-- Give up the key that may have begun in the innermost collection. -/
def dropKey? (s : Scanner) : Option Scanner := do
  return { s with key := ← giveUp? s.key }

/-- Whether a key that began at a place cannot end at another one. -/
def isStale (key : PossibleKey) (now : Cursor) : Bool :=
  key.start.line < now.line || key.start.offset + 1024 < now.offset

/-- Give up a key if it cannot end here. -/
def refresh? (now : Cursor) (key : Option PossibleKey) : Option (Option PossibleKey) :=
  if key.any (isStale · now) then giveUp? key else some key

/-- Give up all keys that cannot end here. -/
def refreshKeys? (s : Scanner) : Option Scanner := do
  return { s with
    key := ← refresh? s.cursor s.key
    outerKeys := ← s.outerKeys.mapM (refresh? s.cursor) }

/-- Remember this place if a key may begin here. -/
def noteKey? (s : Scanner) : Option Scanner :=
  if s.keyAllowed then do
    let required := !s.inFlow && s.indent = some s.cursor.column
    let s ← s.dropKey?
    return { s with key := some ⟨required, s.count, s.cursor⟩ }
  else some s

/-- Open a block collection at a column if it is indented more than the innermost one; its token
goes behind the first `position` tokens. -/
def openBlock (s : Scanner) (column position : Nat) (token : Token) : Scanner :=
  if s.inFlow || s.indent.any (column ≤ ·) then s
  else
    { s.insertAt position token with
      indent := some column
      outerIndents := s.indent :: s.outerIndents }

/-- Open a block collection here. -/
def openBlockHere (s : Scanner) (token : Token) : Scanner :=
  s.openBlock s.cursor.column s.count token

/-- Close the block collections, innermost first, whose indentation is `outside`, given the
indentations around the innermost one. -/
def closeFrom (outside : Nat → Bool) : (outer : List (Option Nat)) → Scanner → Scanner
  | [], s => { s with outerIndents := [] }
  | next :: outer, s =>
    if s.indent.any outside then closeFrom outside outer { s.push .blockEnd with indent := next }
    else { s with outerIndents := next :: outer }

/-- Close the block collections whose indentation is `outside`. -/
def closeBlocks (s : Scanner) (outside : Nat → Bool) : Scanner :=
  if s.inFlow then s else closeFrom outside s.outerIndents s

/-- Close all block collections where no key may be under way. -/
def closeAll? (s : Scanner) : Option Scanner := do
  return (← (s.closeBlocks fun _ => true).dropKey?).allowKey false

/-- Pass over blanks, comments and line breaks. A tab does not count as a blank where a key may
begin in a block collection. -/
def skipToToken : (steps : Nat) → Scanner → Scanner
  | 0, s => s
  | steps + 1, s =>
    let c := if s.cursor.column = 0 && s.cursor.sees '\uFEFF' then s.cursor.skip 1 else s.cursor
    let c := (c.skipWhile fun b => b = ' ' || ((s.inFlow || !s.keyAllowed) && b = '\t')).skipComment
    match c.lineBreak? with
    | some (_, next) =>
      skipToToken steps ((s.moveTo next).allowKey (s.keyAllowed || !s.inFlow))
    | none => s.moveTo c

/-- The end of the text. -/
def fetchEnd? (s : Scanner) : Option Scanner := do
  return { (← s.closeAll?).push .streamEnd with finished := true }

/-- A directive. -/
def fetchDirective? (s : Scanner) : Option Scanner := do
  let s ← s.closeAll?
  let (token, c) ← directive? s.cursor
  return (s.push token).moveTo c

/-- A mark at which documents start or end. -/
def fetchDocumentMark? (s : Scanner) : Option Scanner := do
  return (← s.closeAll?).pushIndicator
    (if s.cursor.sees '-' then .documentStart else .documentEnd) 3

/-- The begin of a flow collection. -/
def fetchFlowStart? (s : Scanner) (token : Token) : Option Scanner := do
  let s ← s.noteKey?
  return { (s.pushIndicator token 1).allowKey true with
    key := none, outerKeys := s.key :: s.outerKeys }

/-- The end of a flow collection. -/
def fetchFlowEnd? (s : Scanner) (token : Token) : Option Scanner := do
  let s := ((← s.dropKey?).pushIndicator token 1).allowKey false
  match s.outerKeys with
  | [] => return s
  | key :: outer => return { s with key := key, outerKeys := outer }

/-- A comma in a flow collection. -/
def fetchFlowEntry? (s : Scanner) : Option Scanner := do
  return ((← s.dropKey?).pushIndicator .flowEntry 1).allowKey true

/-- The dash before an item. -/
def fetchBlockEntry? (s : Scanner) : Option Scanner :=
  if !s.inFlow && !s.keyAllowed then none
  else do
    return ((← (s.openBlockHere .blockSequenceStart).dropKey?).pushIndicator .blockEntry 1).allowKey
      true

/-- The question mark before a key. -/
def fetchKey? (s : Scanner) : Option Scanner :=
  if !s.inFlow && !s.keyAllowed then none
  else do
    return ((← (s.openBlockHere .blockMappingStart).dropKey?).pushIndicator .key 1).allowKey
      !s.inFlow

/-- The colon before a value. If a key may have begun, it has. -/
def fetchValue? (s : Scanner) : Option Scanner :=
  match s.key with
  | some key =>
    let s := (s.insertAt key.position .key).openBlock key.start.column key.position
      .blockMappingStart
    some ({ s with key := none }.pushIndicator .value 1 |>.allowKey false)
  | none =>
    if !s.inFlow && !s.keyAllowed then none
    else some (((s.openBlockHere .blockMappingStart).pushIndicator .value 1).allowKey !s.inFlow)

/-- An anchor, alias, tag or scalar that may be a key or the begin of one. -/
def fetchNode? (s : Scanner) (read : Cursor → Option (Token × Cursor)) : Option Scanner := do
  let s ← s.noteKey?
  let (token, c) ← read s.cursor
  return ((s.push token).moveTo c).allowKey false

/-- A block scalar. -/
def fetchBlockScalar? (s : Scanner) (folded : Bool) : Option Scanner := do
  let s ← s.dropKey?
  let (text, c) ← blockScalar? folded s.indent s.cursor
  return ((s.push (.scalar (if folded then .folded else .literal) text)).moveTo c).allowKey true

/-- A quoted scalar. -/
def fetchQuoted? (s : Scanner) (quotes : Quotes) : Option Scanner :=
  s.fetchNode? fun c => (quotedScalar? quotes c).map fun (text, c) => (.scalar .quoted text, c)

/-- A plain scalar. After one at the end of a line a key may begin. -/
def fetchPlain? (s : Scanner) : Option Scanner := do
  let s ← s.noteKey?
  let scalar ← plainScalar? s.inFlow ((s.indent.map (· + 1)).getD 0) s.cursor
  return ((s.push (.scalar .plain (scalar.text))).moveTo scalar.next).allowKey scalar.endsLine

/-- Whether a plain scalar can begin with the given characters. -/
def startsPlain (inFlow : Bool) : List Char → Bool
  | [] => false
  | c :: rest =>
    !(isSpacing c || c ∈ "-?:,[]\x7b\x7d#&*!|>'\"%@\x60".toList) ||
      (c = '-' && !rest.head?.any isBlank) ||
      (!inFlow && (c = '?' || c = ':') && !atSpacing rest)

/-- The next token, which stands here. -/
def fetchHere? (s : Scanner) : Option Scanner :=
  let starts := s.cursor.column = 0
  match s.cursor.rest with
  | [] => s.fetchEnd?
  | c :: rest =>
    let indicates := s.inFlow || atSpacing rest
    if starts && c = '%' then s.fetchDirective?
    else if s.cursor.atDocumentMark then s.fetchDocumentMark?
    else if c = '[' then s.fetchFlowStart? .flowSequenceStart
    else if c = '\x7b' then s.fetchFlowStart? .flowMappingStart
    else if c = ']' then s.fetchFlowEnd? .flowSequenceEnd
    else if c = '\x7d' then s.fetchFlowEnd? .flowMappingEnd
    else if c = ',' then s.fetchFlowEntry?
    else if c = '-' && atSpacing rest then s.fetchBlockEntry?
    else if c = '?' && indicates then s.fetchKey?
    else if c = ':' && indicates then s.fetchValue?
    else if c = '*' then
      s.fetchNode? fun c => (anchorName? c).map fun (name, c) => (.alias name, c)
    else if c = '&' then
      s.fetchNode? fun c => (anchorName? c).map fun (name, c) => (.anchor name, c)
    else if c = '!' then
      s.fetchNode? fun c => (tag? s.inFlow c).map fun (name, c) => (.tag name, c)
    else if c = '|' && !s.inFlow then s.fetchBlockScalar? false
    else if c = '>' && !s.inFlow then s.fetchBlockScalar? true
    else if c = '\'' then s.fetchQuoted? .single
    else if c = '"' then s.fetchQuoted? .double
    else if startsPlain s.inFlow s.cursor.rest then s.fetchPlain?
    else none

/-- The next token. -/
def fetch? (s : Scanner) : Option Scanner := do
  let s ← (skipToToken s.cursor.steps s).refreshKeys?
  (s.closeBlocks (s.cursor.column < ·)).fetchHere?

/-- All tokens from here on. Every token but the last stands for at least one character. -/
def run? : (steps : Nat) → Scanner → Option Scanner
  | 0, s => if s.finished then some s else none
  | steps + 1, s => if s.finished then some s else s.fetch?.bind (run? steps)

end Scanner

/-- The tokens of a text. -/
def tokens? (text : List Char) : Option (List Token) :=
  if text.all isAllowed then
    (Scanner.run? (text.length + 2) (.start text)).map fun s => s.tokens.reverse
  else none

end Yaml

end SchemaRpc
