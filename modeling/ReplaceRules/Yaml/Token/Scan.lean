import ReplaceRules.Yaml.Property
import ReplaceRules.Yaml.Scalar
import ReplaceRules.Yaml.Token

/-!
# The tokens of a YAML text

The text is read from left to right, one mark or scalar at a time. Two things are known only later. A collection in block style
ends where a line is indented less than it, and a scalar turns out to be a key when a colon follows it on its line; then the
token that says so is put before it. So a token is released only when it can no longer be the start of such a key.

Where the text is not well-formed or cannot be read the tokens end. Those that were not released by then are lost.
-/

namespace ReplaceRules.Yaml

/-- A place that may turn out to be the start of a key: the number of the token there, and whether it has to be a key because it
stands where its block mapping begins. -/
structure PossibleKey where
  token : Nat
  required : Bool
  mark : Mark
  deriving DecidableEq, Repr

/-- What is known while a text is read. -/
structure Scanner where
  cursor : Cursor
  /-- The tokens that have been read and not released. -/
  queue : List Token
  /-- How many tokens have been released. -/
  released : Nat
  /-- The least indentation of what stands in the innermost block, zero outside all blocks. -/
  margin : Nat
  /-- The margins of the blocks around it. -/
  outer : List Nat
  /-- Whether a key may begin here. -/
  keyAllowed : Bool
  /-- The possible key of the block part, and of each flow collection inside it; the innermost comes first. -/
  keys : List (Option PossibleKey)
  deriving Repr

namespace Scanner

/-- Whether the place is inside a flow collection. -/
def inFlow (s : Scanner) : Bool :=
  match s.keys with
  | _ :: _ :: _ => true
  | _ => false

/-- Appends a token. -/
def push (s : Scanner) (t : Token) : Scanner := { s with queue := s.queue ++ [t] }

/-- Puts a token before the token with a number. -/
def insertAt (s : Scanner) (number : Nat) (t : Token) : Scanner :=
  let place := number - s.released
  { s with queue := s.queue.take place ++ t :: s.queue.drop place }

/-- Gives up the innermost possible key. A key that is required cannot be given up. -/
def dropKey (s : Scanner) : Option Scanner :=
  match s.keys with
  | some key :: keys => if key.required then none else some { s with keys := none :: keys }
  | _ => some s

/-- Notes that the token to come may turn out to be the start of a key. -/
def noteKey (s : Scanner) : Option Scanner :=
  if s.keyAllowed then do
    let s ← s.dropKey
    let key : PossibleKey :=
      { token := s.released + s.queue.length, required := !s.inFlow && s.margin = s.cursor.mark.column + 1,
        mark := s.cursor.mark }
    some { s with keys := some key :: s.keys.tail }
  else some s

/-- Gives up the possible keys that a colon can no longer follow: it has to stand on the line of the key, not more than 1024
bytes after its start. -/
def dropStaleKeys (s : Scanner) : Option Scanner :=
  let now := s.cursor.mark
  let stale (key : PossibleKey) := key.mark.line < now.line || key.mark.bytes + 1024 < now.bytes
  if !s.keys.any (·.any stale) then some s
  else if s.keys.any (·.any fun key => stale key && key.required) then none
  else some { s with keys := s.keys.map fun key => key.filter (!stale ·) }

/-- Begins a collection in block style at a column, unless one has begun there. `place` puts its first token into the queue. -/
def indentTo (s : Scanner) (column : Nat) (place : Scanner → Scanner) : Scanner :=
  if s.inFlow || s.margin > column then s
  else place { s with margin := column + 1, outer := s.margin :: s.outer }

/-- The blocks that end at a margin: their tokens, and the margin and the margins around it that are left. -/
def endBlocks (least margin : Nat) : List Nat → List Token × Nat × List Nat
  | [] => ([], margin, [])
  | next :: outer =>
    if margin > least then
      let (ends, left) := endBlocks least next outer
      (.blockEnd :: ends, left)
    else ([], margin, next :: outer)

/-- Ends the blocks whose margin is more than the given one. -/
def unindentTo (s : Scanner) (least : Nat) : Scanner :=
  if s.inFlow then s
  else
    let (ends, margin, outer) := endBlocks least s.margin s.outer
    { s with queue := s.queue ++ ends, margin, outer }

/-- Goes on after some characters. -/
def skip (s : Scanner) (count : Nat) : Scanner := { s with cursor := s.cursor.skip count }

/-- Skips what stands between two tokens: spaces, comments and line breaks, byte order marks at the start of a line, and
tabulators where they cannot be taken for indentation. Outside flow collections a key may begin on a new line. -/
def skipGap (inFlow keyAllowed inComment : Bool) (mark : Mark) : List Char → Bool × Cursor
  | [] => (keyAllowed, ⟨mark, []⟩)
  | c :: rest =>
    if c = unreadable then (keyAllowed, ⟨mark, [c]⟩)
    else if c = '\r' then skipGap inFlow keyAllowed false mark rest
    else if isBreak c then skipGap inFlow (keyAllowed || !inFlow) false mark.nextLine rest
    else if inComment || c = ' ' || (c = '\t' && (inFlow || !keyAllowed)) then
      skipGap inFlow keyAllowed inComment (mark.next c) rest
    else if c = '#' then skipGap inFlow keyAllowed true (mark.next c) rest
    else if c = '\ufeff' && mark.column = 0 then skipGap inFlow keyAllowed false (mark.next c) rest
    else (keyAllowed, ⟨mark, c :: rest⟩)

/-- Takes a mark that begins or ends a document. -/
def documentMark (s : Scanner) (t : Token) : Option Scanner := do
  let s ← (s.unindentTo 0).dropKey
  some (({ s with keyAllowed := false }.skip 3).push t)

/-- Takes the end of the text. -/
def finish (s : Scanner) : Option Scanner := do
  let mark : Mark := if s.cursor.mark.column = 0 then s.cursor.mark else s.cursor.mark.nextLine
  let s ← ({ s with cursor := ⟨mark, []⟩ }.unindentTo 0).dropKey
  some ({ s with keyAllowed := false }.push .streamEnd)

/-- Takes a directive. -/
def directive (s : Scanner) : Option Scanner := do
  let s ← (s.unindentTo 0).dropKey
  let (name, c) := (s.cursor.skip 1).span isNameChar
  let (t, c) ←
    if !endsWord c.rest then none
    else if name = "YAML".toList then (readVersion c).map fun (major, minor, c) => (.versionDirective major minor, c)
    else if name = "TAG".toList then (readTagDirective c).map fun (handle, c) => (.tagDirective handle, c)
    else none
  let c ← finishLine c
  some ({ s with keyAllowed := false, cursor := c }.push t)

/-- Takes the mark that begins a flow collection. -/
def openFlow (s : Scanner) (t : Token) : Option Scanner := do
  let s ← s.noteKey
  some (({ s with keys := none :: s.keys, keyAllowed := true }.skip 1).push t)

/-- Takes the mark that ends a flow collection. -/
def closeFlow (s : Scanner) (t : Token) : Option Scanner := do
  let s ← s.dropKey
  let keys := if s.inFlow then s.keys.tail else s.keys
  some (({ s with keys, keyAllowed := false }.skip 1).push t)

/-- Takes the comma between two members of a flow collection. -/
def flowEntry (s : Scanner) : Option Scanner := do
  let s ← s.dropKey
  some (({ s with keyAllowed := true }.skip 1).push .flowEntry)

/-- Takes the hyphen before a member of a block sequence. -/
def blockEntry (s : Scanner) : Option Scanner := do
  if !s.inFlow && !s.keyAllowed then none
  else
    let s ← (s.indentTo s.cursor.mark.column (·.push .blockSequenceStart)).dropKey
    some (({ s with keyAllowed := true }.skip 1).push .blockEntry)

/-- Takes the question mark before a key. -/
def keyMark (s : Scanner) : Option Scanner := do
  if !s.inFlow && !s.keyAllowed then none
  else
    let s ← (s.indentTo s.cursor.mark.column (·.push .blockMappingStart)).dropKey
    some (({ s with keyAllowed := !s.inFlow }.skip 1).push .key)

/-- Takes the colon between a key and its value. If a key is possible it is one, and the tokens that say so are put before
it. -/
def valueMark (s : Scanner) : Option Scanner :=
  match s.keys with
  | some key :: keys =>
    let s := (s.insertAt key.token .key).indentTo key.mark.column (·.insertAt key.token .blockMappingStart)
    some (({ s with keys := none :: keys, keyAllowed := false }.skip 1).push .value)
  | _ =>
    if !s.inFlow && !s.keyAllowed then none
    else
      let s := s.indentTo s.cursor.mark.column (·.push .blockMappingStart)
      some (({ s with keyAllowed := !s.inFlow }.skip 1).push .value)

/-- Takes an alias or an anchor. -/
def anchorMark (s : Scanner) (t : Token) : Option Scanner := do
  let s ← s.noteKey
  let c ← readAnchor (s.cursor.skip 1)
  some ({ s with keyAllowed := false, cursor := c }.push t)

/-- Takes a tag. -/
def tagMark (s : Scanner) : Option Scanner := do
  let s ← s.noteKey
  let (handle, c) ← readTag s.inFlow s.cursor
  some ({ s with keyAllowed := false, cursor := c }.push (.tag handle))

/-- The token of a scalar. Its value ends before the first U+0000, which only an escape in double quotes can write. -/
def scalarToken (read : ReadScalar) : Token := .scalar (String.ofList (read.text.takeWhile (· ≠ '\x00')))

/-- Takes a scalar in block style. -/
def block (s : Scanner) (literal : Bool) : Option Scanner := do
  let s ← s.dropKey
  let read ← readBlock literal s.margin (s.cursor.skip 1)
  some ({ s with keyAllowed := true, cursor := read.cursor }.push (scalarToken read))

/-- Takes a scalar in one of the flow styles; after a plain scalar that was followed by a line break a key may begin. -/
def flowScalar (s : Scanner) (read : Scanner → Option ReadScalar) : Option Scanner := do
  let s ← s.noteKey
  let read ← read s
  some ({ s with keyAllowed := read.brokeLine, cursor := read.cursor }.push (scalarToken read))

/-- Whether a plain scalar may begin with a character before some others. -/
def beginsPlain (inFlow : Bool) (c : Char) (rest : List Char) : Bool :=
  !(endsWord [c] || c = '{' || c = '}' || "-?:,[]#&*!|>'\"%@\u0060".contains c) || (c = '-' && !rest.head?.any isGap) ||
    (!inFlow && (c = '?' || c = ':') && !endsWord rest)

/-- Takes the token that begins at the place. Four characters have to be readable there, and four behind a quote. -/
def take (s : Scanner) : Option Scanner :=
  match s.cursor.rest with
  | [] => s.finish
  | c :: rest =>
    let column := s.cursor.mark.column
    let indicates := s.inFlow || endsWord rest
    if !canRead (if c = '\'' || c = '"' then 5 else 4) (c :: rest) then none
    else if column = 0 && c = '%' then s.directive
    else if column = 0 && isTriple '-' (c :: rest) then s.documentMark .documentStart
    else if column = 0 && isTriple '.' (c :: rest) then s.documentMark .documentEnd
    else if c = '[' then s.openFlow .flowSequenceStart
    else if c = '{' then s.openFlow .flowMappingStart
    else if c = ']' then s.closeFlow .flowSequenceEnd
    else if c = '}' then s.closeFlow .flowMappingEnd
    else if c = ',' then s.flowEntry
    else if c = '-' && endsWord rest then s.blockEntry
    else if c = '?' && indicates then s.keyMark
    else if c = ':' && indicates then s.valueMark
    else if c = '*' then s.anchorMark .alias
    else if c = '&' then s.anchorMark .anchor
    else if c = '!' then s.tagMark
    else if c = '|' && !s.inFlow then s.block true
    else if c = '>' && !s.inFlow then s.block false
    else if c = '\'' then s.flowScalar fun s => readSingleQuoted false (s.cursor.skip 1).mark [] .none rest
    else if c = '"' then s.flowScalar fun s => readDoubleQuoted .none (s.cursor.skip 1).mark [] .none rest
    else if beginsPlain s.inFlow c rest then
      s.flowScalar fun s => readPlain s.inFlow s.margin s.cursor.mark [] .none s.cursor.rest
    else none

/-- Reads up to the next token and takes it. -/
def readToken (s : Scanner) : Option Scanner := do
  let (keyAllowed, cursor) := skipGap s.inFlow s.keyAllowed false s.cursor.mark s.cursor.rest
  let s ← { s with keyAllowed, cursor }.dropStaleKeys
  (s.unindentTo (cursor.mark.column + 1)).take

/-- Splits a queue at the first token that may turn out to be the start of a key. -/
def ready (keys : List (Option PossibleKey)) (number : Nat) : List Token → List Token × List Token
  | [] => ([], [])
  | t :: queue =>
    if keys.any fun key => key.any (·.token = number) then ([], t :: queue)
    else
      let (now, later) := ready keys (number + 1) queue
      (t :: now, later)

/-- The tokens that are released from a place on. Every token but the last takes a character, so there are at most `fuel` more to
read if there are fewer characters. -/
def release : Nat → Scanner → List Token
  | 0, _ => []
  | fuel + 1, s =>
    match s.readToken.bind dropStaleKeys with
    | none => []
    | some s =>
      let (now, later) := ready s.keys s.released s.queue
      if now.getLast? = some .streamEnd then now
      else now ++ release fuel { s with queue := later, released := s.released + now.length }

end Scanner

/-- The tokens of a text up to the first place where it is not well-formed or cannot be read. They end with the end of the stream
if there is no such place. -/
def Token.ofChars (encoding : Encoding) (text : List Char) : List Token :=
  if text.head? = some unreadable then []
  else
    .streamStart encoding :: Scanner.release (text.length + 1)
      { cursor := ⟨{}, text⟩, queue := [], released := 1, margin := 0, outer := [], keyAllowed := true, keys := [none] }

end ReplaceRules.Yaml
