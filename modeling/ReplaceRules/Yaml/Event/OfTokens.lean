import ReplaceRules.Yaml.Event
import ReplaceRules.Yaml.Token.Scan

/-!
# The events of a YAML file

The grammar of YAML as a machine with a stack: `Expected` is what may come next, the stack holds what comes after it. Each step
takes some tokens and gives one event. A missing node gives an empty scalar. Where the grammar is violated, or where a token is
needed and there is none left, the events end with a fault.
-/

namespace ReplaceRules.Yaml

/-- What may come next. -/
inductive Expected where
  | stream
  | firstDocument
  | document
  | documentContent
  | documentEnd
  | blockNode
  | blockSequenceEntry
  | bareSequenceEntry
  | blockMappingKey
  | blockMappingValue
  | flowSequenceEntry (first : Bool)
  | singlePairKey
  | singlePairValue
  | singlePairEnd
  | flowMappingKey (first : Bool)
  | flowMappingValue
  | flowMappingNoValue
  | nothing
  deriving DecidableEq, Repr

/-- What may come next, what comes after it, and the tag handles that have been declared. -/
structure Grammar where
  expected : Expected
  later : List Expected := []
  handles : List String := []
  deriving Repr

/-- The event of a step, the grammar after it and the tokens that are left. -/
abbrev Grammar.Step := Option (Event × Grammar × List Token)

namespace Grammar

/-- The grammar after something is complete. -/
def pop (g : Grammar) : Grammar :=
  match g.later with
  | e :: later => { g with expected := e, later }
  | [] => { g with expected := .nothing }

/-- The grammar that expects something now and goes on with something else. -/
def expect (g : Grammar) (e : Expected) : Grammar := { g with expected := e }

/-- The grammar that comes back to something later. -/
def andThen (g : Grammar) (e : Expected) : Grammar := { g with later := e :: g.later }

/-- The handles that need no declaration. -/
def knownHandles : List String := ["!", "!!"]

/-- The anchor and the tag before a node, in either order: whether there is one, the handle of the tag, and what follows. -/
def properties : List Token → Bool × Option String × List Token
  | .anchor :: .tag handle :: rest => (true, some handle, rest)
  | .tag handle :: .anchor :: rest => (true, some handle, rest)
  | .anchor :: rest => (true, none, rest)
  | .tag handle :: rest => (true, some handle, rest)
  | rest => (false, none, rest)

/-- A node. `inBlock` allows collections in block style, `bare` a block sequence that is not indented. -/
def node (inBlock bare : Bool) (g : Grammar) : List Token → Step
  | .alias :: rest => some (.alias, g.pop, rest)
  | tokens =>
    let (found, handle, tokens) := properties tokens
    if handle.any fun h => h ≠ "" && !g.handles.contains h then none
    else
      match tokens with
      | [] => none
      | .scalar value :: rest => some (.scalar value, g.pop, rest)
      | .flowSequenceStart :: rest => some (.sequenceStart, g.expect (.flowSequenceEntry true), rest)
      | .flowMappingStart :: rest => some (.mappingStart, g.expect (.flowMappingKey true), rest)
      | t :: rest =>
        if bare && t = .blockEntry then some (.sequenceStart, g.expect .bareSequenceEntry, t :: rest)
        else if inBlock && t = .blockSequenceStart then some (.sequenceStart, g.expect .blockSequenceEntry, rest)
        else if inBlock && t = .blockMappingStart then some (.mappingStart, g.expect .blockMappingKey, rest)
        else if found then some (.scalar "", g.pop, t :: rest)
        else none

/-- A node that is missing. -/
def missing (g : Grammar) (next : Expected) (tokens : List Token) : Step :=
  some (.scalar "", g.expect next, tokens)

/-- A node, or a missing one if one of some tokens follows; something else is expected after either. -/
def nodeUnless (ends : List Token) (inBlock bare : Bool) (g : Grammar) (next : Expected) (tokens : List Token) : Step :=
  match tokens with
  | [] => none
  | t :: _ => if ends.contains t then g.missing next tokens else node inBlock bare (g.andThen next) tokens

/-- The directives before a document: the handles that they declare, and what follows. A version is given once and is 1.1 or
1.2, and a handle is declared once. -/
def directives (versioned : Bool) (handles : List String) : List Token → Option (List String × List Token)
  | .versionDirective major minor :: rest =>
    if versioned || major ≠ 1 || (minor ≠ 1 && minor ≠ 2) then none else directives true handles rest
  | .tagDirective handle :: rest =>
    if handles.contains handle then none else directives versioned (handle :: handles) rest
  | rest => some (handles, rest)

/-- A document that is announced by a mark, after its directives. -/
def announcedDocument (g : Grammar) (tokens : List Token) : Step :=
  match directives false [] tokens with
  | some (handles, .documentStart :: rest) =>
    some (.documentStart,
      { g with expected := .documentContent, later := .documentEnd :: g.later, handles := handles ++ knownHandles }, rest)
  | _ => none

/-- A document or the end of the stream. -/
def document (bare : Bool) (g : Grammar) (tokens : List Token) : Step :=
  match tokens with
  | [] => none
  | .streamEnd :: rest => some (.streamEnd, g.expect .nothing, rest)
  | t :: _ =>
    match t with
    | .versionDirective .. | .tagDirective _ | .documentStart => g.announcedDocument tokens
    | _ =>
      if bare then
        some (.documentStart, { g with expected := .blockNode, later := .documentEnd :: g.later, handles := knownHandles },
          tokens)
      else none

/-- The content of an announced document, which may be missing. -/
def content (g : Grammar) (tokens : List Token) : Step :=
  match tokens with
  | [] => none
  | t :: _ =>
    match t with
    | .versionDirective .. | .tagDirective _ | .documentStart | .documentEnd | .streamEnd =>
      some (.scalar "", g.pop, tokens)
    | _ => node true false g tokens

/-- One step of the grammar. -/
def step (g : Grammar) (tokens : List Token) : Step :=
  match g.expected, tokens with
  | .nothing, _ => none
  | _, [] => none
  | .stream, .streamStart encoding :: rest => some (.streamStart (some encoding), g.expect .firstDocument, rest)
  | .stream, _ => none
  | .firstDocument, _ => g.document true tokens
  | .document, _ => g.document false (tokens.dropWhile (· = .documentEnd))
  | .documentContent, _ => g.content tokens
  | .documentEnd, t :: rest =>
    some (.documentEnd, { g with expected := .document, handles := [] }, if t = .documentEnd then rest else t :: rest)
  | .blockNode, _ => node true false g tokens
  | .blockSequenceEntry, .blockEntry :: rest =>
    g.nodeUnless [.blockEntry, .blockEnd] true false .blockSequenceEntry rest
  | .blockSequenceEntry, .blockEnd :: rest => some (.sequenceEnd, g.pop, rest)
  | .blockSequenceEntry, _ => none
  | .bareSequenceEntry, .blockEntry :: rest =>
    g.nodeUnless [.blockEntry, .key, .value, .blockEnd] true false .bareSequenceEntry rest
  | .bareSequenceEntry, _ => some (.sequenceEnd, g.pop, tokens)
  | .blockMappingKey, .key :: rest => g.nodeUnless [.key, .value, .blockEnd] true true .blockMappingValue rest
  | .blockMappingKey, .blockEnd :: rest => some (.mappingEnd, g.pop, rest)
  | .blockMappingKey, _ => none
  | .blockMappingValue, .value :: rest => g.nodeUnless [.key, .value, .blockEnd] true true .blockMappingKey rest
  | .blockMappingValue, _ => g.missing .blockMappingKey tokens
  | .flowSequenceEntry first, t :: rest =>
    if t = .flowSequenceEnd then some (.sequenceEnd, g.pop, rest)
    else if !first && t ≠ .flowEntry then none
    else
      match (if first then tokens else rest) with
      | [] => none
      | .key :: rest => some (.mappingStart, g.expect .singlePairKey, rest)
      | .flowSequenceEnd :: rest => some (.sequenceEnd, g.pop, rest)
      | tokens => node false false (g.andThen (.flowSequenceEntry false)) tokens
  | .singlePairKey, t :: rest =>
    if [.value, .flowEntry, .flowSequenceEnd].contains t then g.missing .singlePairValue rest
    else node false false (g.andThen .singlePairValue) tokens
  | .singlePairValue, .value :: rest => g.nodeUnless [.flowEntry, .flowSequenceEnd] false false .singlePairEnd rest
  | .singlePairValue, _ => g.missing .singlePairEnd tokens
  | .singlePairEnd, _ => some (.mappingEnd, g.expect (.flowSequenceEntry false), tokens)
  | .flowMappingKey first, t :: rest =>
    if t = .flowMappingEnd then some (.mappingEnd, g.pop, rest)
    else if !first && t ≠ .flowEntry then none
    else
      match (if first then tokens else rest) with
      | [] => none
      | .key :: rest => g.nodeUnless [.value, .flowEntry, .flowMappingEnd] false false .flowMappingValue rest
      | .flowMappingEnd :: rest => some (.mappingEnd, g.pop, rest)
      | tokens => node false false (g.andThen .flowMappingNoValue) tokens
  | .flowMappingValue, .value :: rest =>
    g.nodeUnless [.flowEntry, .flowMappingEnd] false false (.flowMappingKey false) rest
  | .flowMappingValue, _ => g.missing (.flowMappingKey false) tokens
  | .flowMappingNoValue, _ => g.missing (.flowMappingKey false) tokens

/-- The events from a state of the grammar on. A token gives four events at most, so `fuel` is enough if it is four times the
number of tokens and a few more. -/
def items : Nat → Grammar → List Token → List Item
  | 0, _, _ => [.fault]
  | fuel + 1, g, tokens =>
    match g.step tokens with
    | none => [.fault]
    | some (.streamEnd, _, _) => [.event .streamEnd]
    | some (e, g, rest) => .event e :: items fuel g rest

end Grammar

/-- The events of some tokens. -/
def Event.ofTokens (tokens : List Token) : List Item :=
  Grammar.items (4 * tokens.length + 8) { expected := .stream } tokens

/-- The events of a file. -/
def Event.ofBytes (bytes : ByteArray) : List Item :=
  let (encoding, text) := decode bytes
  ofTokens (Token.ofChars encoding text)

end ReplaceRules.Yaml
