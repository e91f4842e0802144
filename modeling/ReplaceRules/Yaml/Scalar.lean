import ReplaceRules.Yaml.Cursor

/-!
# YAML scalars

Reading the text of a scalar in each of its styles: plain, in single quotes, in double quotes, and as a literal or folded block.
Each reader goes through the characters once. In the flow styles, spaces at the end of a line are dropped and a single line
break becomes a space; what stands between two words is kept as a `Gap` until it is known whether another word follows.

A reader returns nothing where the text is not well-formed. It looks some characters ahead, and if those cannot be read, it
returns nothing, too: four where a word begins, two inside a word, one elsewhere.
-/

namespace ReplaceRules.Yaml

/-- What was read since the last word: nothing, spaces and tabulators of one line, or line breaks. Characters are kept with the
last one first. The first line break is kept apart, for a line feed that is alone is folded to a space; an escaped line break
leaves no first one. -/
inductive Gap where
  | none
  | spaces (read : List Char)
  | breaks (first : Option Char) (more : List Char)
  deriving DecidableEq, Repr

namespace Gap

/-- The gap with one more space or tabulator; those around line breaks are dropped. -/
def addSpace (c : Char) : Gap → Gap
  | .none => .spaces [c]
  | .spaces read => .spaces (c :: read)
  | .breaks first more => .breaks first more

/-- The gap with one more line break. -/
def addBreak (c : Char) : Gap → Gap
  | .breaks first more => .breaks first (c :: more)
  | _ => .breaks (some c) []

/-- What a gap between two words stands for, the last character first. -/
def folded : Gap → List Char
  | .none => []
  | .spaces read => read
  | .breaks (some '\n') [] => [' ']
  | .breaks (some '\n') more => more
  | .breaks first more => more ++ first.toList

/-- Whether a gap has line breaks. -/
def hasBreaks : Gap → Bool
  | .breaks .. => true
  | _ => false

/-- How many characters are looked at behind a gap. -/
def lookahead : Gap → Nat
  | .none => 2
  | _ => 4

end Gap

/-- A scalar that has been read: its text, whether the reading ended on a later line than its last word, and the place where the
reading ended. -/
structure ReadScalar where
  text : List Char
  brokeLine : Bool
  cursor : Cursor
  deriving Repr

/-- Whether a colon inside a flow collection is followed by a mark that may not follow it. -/
def badColon (c : Char) (rest : List Char) : Bool :=
  c = ':' && rest.head?.any fun d => d = ',' || d = '?' || d = '[' || d = ']' || d = '{' || d = '}'

/-- A mark that ends a plain scalar inside a flow collection. -/
def isFlowMark (c : Char) : Bool := c = ',' || c = '[' || c = ']' || c = '{' || c = '}'

/-- Reads a plain scalar. Outside flow collections its lines are indented by `indent` columns at least. -/
def readPlain (inFlow : Bool) (indent : Nat) (mark : Mark) (text : List Char) (gap : Gap) : List Char → Option ReadScalar
  | [] => some ⟨text.reverse, gap.hasBreaks, ⟨mark, []⟩⟩
  | c :: rest =>
    if c = '\r' then readPlain inFlow indent mark text gap rest
    else if isBreak c then readPlain inFlow indent mark.nextLine text (gap.addBreak c) rest
    else if isGap c then
      if gap.hasBreaks && mark.column < indent && c = '\t' then none
      else readPlain inFlow indent (mark.next c) text (gap.addSpace c) rest
    else
      let outdented := gap ≠ .none && !inFlow && mark.column < indent
      if c = unreadable then none
      else if !outdented && (!canRead gap.lookahead (c :: rest) || (inFlow && badColon c rest)) then none
      else if outdented || (gap ≠ .none && c = '#') || Cursor.atDocumentMark ⟨mark, c :: rest⟩ ||
          (c = ':' && endsWord rest) || (inFlow && isFlowMark c) then
        some ⟨text.reverse, gap.hasBreaks, ⟨mark, c :: rest⟩⟩
      else readPlain inFlow indent (mark.next c) (c :: gap.folded ++ text) .none rest

/-- Reads a scalar up to its closing single quote; inside, a quote is written twice. `closing` tells that a quote has just been
read, which is the closing one unless another follows. -/
def readSingleQuoted (closing : Bool) (mark : Mark) (text : List Char) (gap : Gap) : List Char → Option ReadScalar
  | [] => if closing then some ⟨text.reverse, false, ⟨mark, []⟩⟩ else none
  | c :: rest =>
    if c = unreadable then none
    else if closing then
      if c = '\'' then readSingleQuoted false (mark.next c) ('\'' :: text) .none rest
      else some ⟨text.reverse, false, ⟨mark, c :: rest⟩⟩
    else if c = '\r' then readSingleQuoted false mark text gap rest
    else if isBreak c then readSingleQuoted false mark.nextLine text (gap.addBreak c) rest
    else if isGap c then readSingleQuoted false (mark.next c) text (gap.addSpace c) rest
    else if !canRead gap.lookahead (c :: rest) || Cursor.atDocumentMark ⟨mark, c :: rest⟩ then none
    else if c = '\'' then readSingleQuoted true (mark.next c) (gap.folded ++ text) .none rest
    else readSingleQuoted false (mark.next c) (c :: gap.folded ++ text) .none rest

/-- What a character after a backslash stands for: a character, or as many hexadecimal digits as give one. -/
def escape? (c : Char) : Option (Char ⊕ Nat) :=
  match c with
  | '0' => some (.inl '\x00')
  | 'a' => some (.inl '\x07')
  | 'b' => some (.inl '\x08')
  | 't' => some (.inl '\t')
  | '\t' => some (.inl '\t')
  | 'n' => some (.inl '\n')
  | 'v' => some (.inl '\x0b')
  | 'f' => some (.inl '\x0c')
  | 'r' => some (.inl '\r')
  | 'e' => some (.inl '\x1b')
  | ' ' => some (.inl ' ')
  | '"' => some (.inl '"')
  | '/' => some (.inl '/')
  | '\\' => some (.inl '\\')
  | 'N' => some (.inl '\u0085')
  | '_' => some (.inl '\u00a0')
  | 'L' => some (.inl '\u2028')
  | 'P' => some (.inl '\u2029')
  | 'x' => some (.inr 2)
  | 'u' => some (.inr 4)
  | 'U' => some (.inr 8)
  | _ => none

/-- What has been read of an escape in double quotes: nothing, the backslash, some hexadecimal digits of those that follow, or all
of an escaped line break. -/
inductive Escape where
  | none
  | backslash
  | digits (left value : Nat)
  | lineBreak
  deriving DecidableEq, Repr

/-- Reads a scalar up to its closing double quote. -/
def readDoubleQuoted (escape : Escape) (mark : Mark) (text : List Char) (gap : Gap) : List Char → Option ReadScalar
  | [] => none
  | c :: rest =>
    match escape with
    | .backslash =>
      if c = '\r' then readDoubleQuoted .backslash mark text gap rest
      else if isBreak c then readDoubleQuoted .lineBreak mark.nextLine text (.breaks none []) rest
      else
        match escape? c with
        | some (.inl d) => readDoubleQuoted .none (mark.next c) (d :: text) .none rest
        | some (.inr left) => readDoubleQuoted (.digits left 0) (mark.next c) text .none rest
        | none => none
    | .digits left value =>
      match hexDigit? c with
      | none => none
      | some digit =>
        let value := value * 16 + digit
        if left > 1 then readDoubleQuoted (.digits (left - 1) value) (mark.next c) text .none rest
        else if value.isValidChar then readDoubleQuoted .none (mark.next c) (Char.ofNat value :: text) .none rest
        else none
    | .none | .lineBreak =>
      if c = '\r' then readDoubleQuoted .none mark text gap rest
      else if isBreak c then readDoubleQuoted .none mark.nextLine text (gap.addBreak c) rest
      else if isGap c then readDoubleQuoted .none (mark.next c) text (gap.addSpace c) rest
      else if c = '"' && escape = .lineBreak then some ⟨text.reverse, false, ⟨mark.next c, rest⟩⟩
      else if !canRead gap.lookahead (c :: rest) || Cursor.atDocumentMark ⟨mark, c :: rest⟩ then none
      else if c = '"' then some ⟨(gap.folded ++ text).reverse, false, ⟨mark.next c, rest⟩⟩
      else if c = '\\' then readDoubleQuoted .backslash (mark.next c) (gap.folded ++ text) .none rest
      else readDoubleQuoted .none (mark.next c) (c :: gap.folded ++ text) .none rest

/-- What becomes of the line breaks at the end of a block. -/
inductive Chomping where
  | strip
  | clip
  | keep
  deriving DecidableEq, Repr

/-- The chomping that a mark in the header of a block asks for. -/
def chomping? : Char → Option Chomping
  | '+' => some .keep
  | '-' => some .strip
  | _ => none

/-- The marks of the header of a block in either order: the chomping, and the indentation if it is given, which is not zero. -/
def blockHeader (c : Cursor) : Option (Chomping × Option Nat × Cursor) :=
  let digit (d : Char) (k : Nat → Option (Chomping × Option Nat × Cursor)) :=
    if d = '0' then none else k (d.toNat - '0'.toNat)
  match c.rest with
  | [] => some (.clip, none, c)
  | a :: rest =>
    match chomping? a, rest with
    | some chomping, d :: _ =>
      if d.isDigit then digit d fun n => some (chomping, some n, c.skip 2) else some (chomping, none, c.skip 1)
    | some chomping, [] => some (chomping, none, c.skip 1)
    | none, _ =>
      if a.isDigit then
        digit a fun n =>
          match rest.head?.bind chomping? with
          | some chomping => some (chomping, some n, c.skip 2)
          | none => some (.clip, some n, c.skip 1)
      else some (.clip, none, c)

/-- The rest of a line that may hold a comment, and the line break; none if something else stands there. -/
def finishLine (c : Cursor) : Option Cursor :=
  let c := (c.span isGap).2
  let c := if c.rest.head? = some '#' then (c.span fun d => !isBreak d && d ≠ unreadable).2 else c
  match c.rest with
  | [] => some c
  | '\r' :: _ :: rest => some ⟨c.mark.nextLine, rest⟩
  | d :: rest => if isBreak d then some ⟨c.mark.nextLine, rest⟩ else none

/-- The empty lines before the content of a block: their line breaks, the last one first, the widest indentation seen, and the
place after them. A tabulator may not stand in the indentation. -/
def leadingLines (indent : Option Nat) (mark : Mark) (breaks : List Char) (widest : Nat) :
    List Char → Option (List Char × Nat × Cursor)
  | [] => some (breaks, max widest mark.column, ⟨mark, []⟩)
  | c :: rest =>
    let within := indent.all (mark.column < ·)
    if c = unreadable then none
    else if c = '\r' then leadingLines indent mark breaks widest rest
    else if c = ' ' && within then leadingLines indent (mark.next c) breaks widest rest
    else if c = '\t' && within then none
    else if isBreak c then leadingLines indent mark.nextLine (c :: breaks) (max widest mark.column) rest
    else some (breaks, max widest mark.column, ⟨mark, c :: rest⟩)

/-- What has been read of a block: its text, the break of its last line and those of empty lines after it, and whether the last
line began with a space. Characters are kept with the last one first. -/
structure Block where
  text : List Char := []
  lineBreak : Option Char := none
  emptyLines : List Char := []
  spaced : Bool := false
  deriving Repr

namespace Block

/-- The block with the first character of another line. In a folded block the break between two lines that do not begin with a
space becomes a space, or nothing if empty lines stand between them. -/
def startLine (literal : Bool) (b : Block) (c : Char) : Block :=
  let joint :=
    if !literal && b.lineBreak = some '\n' && !b.spaced && !isGap c then (if b.emptyLines.isEmpty then [' '] else [])
    else b.lineBreak.toList
  { text := c :: b.emptyLines ++ joint ++ b.text, spaced := isGap c }

/-- The text of a block, with the line breaks at its end that the chomping keeps. -/
def finish (chomping : Chomping) (b : Block) : List Char :=
  match chomping with
  | .strip => b.text.reverse
  | .clip => (b.lineBreak.toList ++ b.text).reverse
  | .keep => (b.emptyLines ++ b.lineBreak.toList ++ b.text).reverse

end Block

/-- Reads the lines of a block that are indented by `indent` columns. -/
def readLines (literal : Bool) (chomping : Chomping) (indent : Nat) (inLine : Bool) (mark : Mark) (b : Block) :
    List Char → Option ReadScalar
  | [] => some ⟨b.finish chomping, true, ⟨mark, []⟩⟩
  | c :: rest =>
    if c = unreadable then none
    else if c = '\r' then readLines literal chomping indent inLine mark b rest
    else if inLine then
      if isBreak c then readLines literal chomping indent false mark.nextLine { b with lineBreak := some c } rest
      else readLines literal chomping indent true (mark.next c) { b with text := c :: b.text } rest
    else if c = ' ' && mark.column < indent then readLines literal chomping indent false (mark.next c) b rest
    else if c = '\t' && mark.column < indent then none
    else if isBreak c then
      readLines literal chomping indent false mark.nextLine { b with emptyLines := c :: b.emptyLines } rest
    else if mark.column = indent then readLines literal chomping indent true (mark.next c) (b.startLine literal c) rest
    else some ⟨b.finish chomping, true, ⟨mark, c :: rest⟩⟩

/-- Reads a block from behind its first mark. Its lines are indented by one column more than the collection it is in at least;
`margin` is that least indentation, and zero at the top of a file. -/
def readBlock (literal : Bool) (margin : Nat) (c : Cursor) : Option ReadScalar := do
  let (chomping, given, c) ← blockHeader c
  let c ← finishLine c
  let indent := given.map (margin - 1 + ·)
  let (breaks, widest, c) ← leadingLines indent c.mark [] 0 c.rest
  readLines literal chomping (indent.getD (max widest (max margin 1))) false c.mark { emptyLines := breaks } c.rest

end ReplaceRules.Yaml
