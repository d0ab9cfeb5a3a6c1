/-
# YAML documents

The node that the tokens of a text write, by the grammar of YAML: directives, then a node, in
which block collections are nested by indentation and flow collections by brackets.  A text holds
at most one document.
-/
import SchemaRpc.Yaml.Node
import SchemaRpc.Utf8

namespace SchemaRpc

namespace Yaml

/-- A node whose anchors are identified by their names. -/
abbrev NamedNode := Node (List Char)

/-- The meanings of tag handles. -/
abbrev Handles := List (List Char × Bytes)

/-- The handles that every document has. -/
def Handles.usual : Handles :=
  [(['!'], Utf8.encode "!"), (['!', '!'], Utf8.encode "tag:yaml.org,2002:")]

/-- A tag written out in full, if its handle has a meaning. -/
def TagName.resolve? (handles : Handles) (name : TagName) : Option Bytes :=
  if name.handle = [] then some name.suffix
  else (handles.lookup name.handle).map (· ++ name.suffix)

/-- The properties that stand in front of a node, in either order. -/
def properties? (handles : Handles) : List Token → Option (Properties (List Char) × List Token)
  | .anchor name :: .tag tag :: rest | .tag tag :: .anchor name :: rest =>
    (tag.resolve? handles).map fun tag => (⟨some name, some tag⟩, rest)
  | .anchor name :: rest => some (⟨some name, none⟩, rest)
  | .tag tag :: rest => (tag.resolve? handles).map fun tag => (⟨none, some tag⟩, rest)
  | tokens => some (.none, tokens)

/-- Whether a node of a block collection is left empty before a token. -/
def Token.endsBlockNode : Token → Bool
  | .key | .value | .blockEnd => true
  | _ => false

/-- Whether a node of a sequence without an indentation of its own is left empty before a
token. -/
def Token.endsLooseItem : Token → Bool
  | .blockEntry | .key | .value | .blockEnd => true
  | _ => false

/-- Whether a node of a flow mapping is left empty before a token. -/
def Token.endsFlowNode : Token → Bool
  | .flowEntry | .flowMappingEnd => true
  | _ => false

/-- Whether a node of a pair in a flow sequence is left empty before a token. -/
def Token.endsPairNode : Token → Bool
  | .flowEntry | .flowSequenceEnd => true
  | _ => false

/-- An empty node if the next token is one before which a node is left empty, and otherwise the
node that `read` finds. -/
def orEmpty? (ends : Token → Bool) (read : List Token → Option (NamedNode × List Token))
    (tokens : List Token) : Option (NamedNode × List Token) :=
  if tokens.head?.any ends then some (.empty, tokens) else read tokens

/-- The value after a key: empty if no colon follows. -/
def valueOf? (ends : Token → Bool) (read : List Token → Option (NamedNode × List Token)) :
    List Token → Option (NamedNode × List Token)
  | .value :: rest => orEmpty? ends read rest
  | tokens => some (.empty, tokens)

/-- A pair in a flow sequence, after its key token. Where the key is left empty, the token that
shows it is taken for the key. -/
def flowPair? (read : List Token → Option (NamedNode × List Token)) (tokens : List Token) :
    Option ((NamedNode × NamedNode) × List Token) := do
  let (key, tokens) ←
    match tokens with
    | .value :: rest | .flowEntry :: rest | .flowSequenceEnd :: rest => some (.empty, rest)
    | tokens => read tokens
  let (value, tokens) ← valueOf? Token.endsPairNode read tokens
  return ((key, value), tokens)

/-- The tokens after the comma that separates entries of a flow collection; before the first
entry there is none. -/
def afterComma? (first : Bool) : List Token → Option (List Token)
  | .flowEntry :: rest => if first then some (.flowEntry :: rest) else some rest
  | tokens => if first then some tokens else none

mutual

/-- The node that stands next. In a flow collection no block collection may begin, and only as
an entry of a block mapping may a sequence have no indentation of its own. -/
def node? (handles : Handles) :
    (fuel : Nat) → (inBlock loose : Bool) → List Token → Option (NamedNode × List Token)
  | 0, _, _, _ => none
  | _ + 1, _, _, .alias name :: rest => some (.alias name, rest)
  | fuel + 1, inBlock, loose, tokens => do
    let (p, tokens) ← properties? handles tokens
    match tokens with
    | .scalar form text :: rest => some (.scalar p form (String.ofList text), rest)
    | .flowSequenceStart :: rest => flowItems? handles fuel p true [] rest
    | .flowMappingStart :: rest => flowEntries? handles fuel p true [] rest
    | tokens =>
      if loose && tokens.head? = some .blockEntry then looseItems? handles fuel p [] tokens
      else if inBlock && tokens.head? = some .blockSequenceStart then
        blockItems? handles fuel p [] tokens.tail
      else if inBlock && tokens.head? = some .blockMappingStart then
        blockEntries? handles fuel p [] tokens.tail
      else if p = .none then none
      else some (.scalar p .plain "", tokens)

/-- The items of a block sequence, after those in `done`, which are in reverse. -/
def blockItems? (handles : Handles) (fuel : Nat) (p : Properties (List Char))
    (done : List NamedNode) (tokens : List Token) : Option (NamedNode × List Token) :=
  match fuel, tokens with
  | fuel + 1, .blockEntry :: rest => do
    let (item, rest) ←
      orEmpty? (fun t => t = .blockEntry || t = .blockEnd) (node? handles fuel true false) rest
    blockItems? handles fuel p (item :: done) rest
  | _ + 1, .blockEnd :: rest => some (.sequence p done.reverse, rest)
  | _, _ => none

/-- The items of a sequence without an indentation of its own. -/
def looseItems? (handles : Handles) (fuel : Nat) (p : Properties (List Char))
    (done : List NamedNode) (tokens : List Token) : Option (NamedNode × List Token) :=
  match fuel, tokens with
  | 0, _ => none
  | fuel + 1, .blockEntry :: rest => do
    let (item, rest) ← orEmpty? Token.endsLooseItem (node? handles fuel true false) rest
    looseItems? handles fuel p (item :: done) rest
  | _ + 1, tokens => some (.sequence p done.reverse, tokens)

/-- The entries of a block mapping. -/
def blockEntries? (handles : Handles) (fuel : Nat) (p : Properties (List Char))
    (done : List (NamedNode × NamedNode)) (tokens : List Token) :
    Option (NamedNode × List Token) :=
  match fuel, tokens with
  | fuel + 1, .key :: rest => do
    let (key, rest) ← orEmpty? Token.endsBlockNode (node? handles fuel true true) rest
    let (value, rest) ← valueOf? Token.endsBlockNode (node? handles fuel true true) rest
    blockEntries? handles fuel p ((key, value) :: done) rest
  | _ + 1, .blockEnd :: rest => some (.mapping p done.reverse, rest)
  | _, _ => none

/-- The items of a flow sequence. An item may be a single pair. -/
def flowItems? (handles : Handles) (fuel : Nat) (p : Properties (List Char)) (first : Bool)
    (done : List NamedNode) (tokens : List Token) : Option (NamedNode × List Token) :=
  match fuel, tokens with
  | _, .flowSequenceEnd :: rest => some (.sequence p done.reverse, rest)
  | 0, _ => none
  | fuel + 1, tokens => do
    match ← afterComma? first tokens with
    | .flowSequenceEnd :: rest => some (.sequence p done.reverse, rest)
    | .key :: rest =>
      let (pair, rest) ← flowPair? (node? handles fuel false false) rest
      flowItems? handles fuel p false (.mapping .none [pair] :: done) rest
    | tokens =>
      let (item, rest) ← node? handles fuel false false tokens
      flowItems? handles fuel p false (item :: done) rest

/-- The entries of a flow mapping. An entry may be a key alone. -/
def flowEntries? (handles : Handles) (fuel : Nat) (p : Properties (List Char)) (first : Bool)
    (done : List (NamedNode × NamedNode)) (tokens : List Token) :
    Option (NamedNode × List Token) :=
  match fuel, tokens with
  | _, .flowMappingEnd :: rest => some (.mapping p done.reverse, rest)
  | 0, _ => none
  | fuel + 1, tokens => do
    match ← afterComma? first tokens with
    | .flowMappingEnd :: rest => some (.mapping p done.reverse, rest)
    | .key :: rest =>
      let (key, rest) ←
        orEmpty? (fun t => t = .value || t.endsFlowNode) (node? handles fuel false false) rest
      let (value, rest) ← valueOf? Token.endsFlowNode (node? handles fuel false false) rest
      flowEntries? handles fuel p false ((key, value) :: done) rest
    | tokens =>
      let (key, rest) ← node? handles fuel false false tokens
      flowEntries? handles fuel p false ((key, .empty) :: done) rest

end

/-- What directives say: whether there was one about the version, and the handles. -/
structure Directives where
  version : Bool
  handles : Handles

/-- The directives in front of a document, after the earlier ones. A handle gets at most one
meaning, and the version at most one line. -/
def directives? (earlier : Directives) : List Token → Option (Directives × List Token)
  | .version major minor :: rest =>
    if earlier.version || major ≠ 1 || !(minor = 1 || minor = 2) then none
    else directives? { earlier with version := true } rest
  | .handle handle meaning :: rest =>
    if (earlier.handles.lookup handle).isSome then none
    else directives? { earlier with handles := (handle, meaning) :: earlier.handles } rest
  | tokens => some (earlier, tokens)

/-- Whether a document that has been opened explicitly is left empty before a token. -/
def Token.endsDocument : Token → Bool
  | .version .. | .handle .. | .documentStart | .documentEnd | .streamEnd => true
  | _ => false

/-- Whether a document is opened explicitly by a token. -/
def Token.opensDocument : Token → Bool
  | .version .. | .handle .. | .documentStart => true
  | _ => false

/-- The node of the document that stands next. -/
def document? (tokens : List Token) : Option (NamedNode × List Token) := do
  let fuel := 2 * tokens.length + 2
  if tokens.head?.any Token.opensDocument then
    match ← directives? ⟨false, []⟩ tokens with
    | (directives, .documentStart :: rest) =>
      orEmpty? Token.endsDocument
        (node? (directives.handles ++ Handles.usual) fuel true false) rest
    | _ => none
  else node? Handles.usual fuel true false tokens

/-- The node that all tokens of a text write; an empty text writes none. -/
def nodeOfTokens? (tokens : List Token) : Option (Option NamedNode) :=
  match tokens with
  | [.streamEnd] => some none
  | tokens =>
    match document? tokens with
    | none => none
    | some (node, rest) =>
      if rest.dropWhile (· = .documentEnd) = [.streamEnd] then some (some node) else none

end Yaml

end SchemaRpc
