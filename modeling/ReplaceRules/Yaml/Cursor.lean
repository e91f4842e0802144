/-!
# Places in a YAML text

A cursor is a place in a text: the characters that follow it, and its line and column. The classes of characters that the
grammar of YAML speaks of are here, too.
-/

namespace ReplaceRules.Yaml

/-- A line and a column, both counted from zero. The column counts characters, `bytes` those of the line before the place in
UTF-8. -/
structure Mark where
  line : Nat := 0
  column : Nat := 0
  bytes : Nat := 0
  deriving DecidableEq, Repr

/-- The place after one more character of the line. -/
def Mark.next (m : Mark) (c : Char) : Mark := { m with column := m.column + 1, bytes := m.bytes + c.utf8Size }

/-- The start of the next line. -/
def Mark.nextLine (m : Mark) : Mark := { line := m.line + 1 }

/-- A place in a text and the characters that follow it. -/
structure Cursor where
  mark : Mark
  rest : List Char
  deriving DecidableEq, Repr

/-- The place some characters further on in the line. -/
def Cursor.skip (c : Cursor) (count : Nat) : Cursor :=
  ⟨(c.rest.take count).foldl Mark.next c.mark, c.rest.drop count⟩

/-- The characters of a class that follow, and the place after them. -/
def Cursor.span (c : Cursor) (p : Char → Bool) : List Char × Cursor :=
  let found := c.rest.takeWhile p
  (found, c.skip found.length)

/-- Stands where the bytes of a file cannot be read as characters. It may not occur in a file itself, and nothing follows it. -/
def unreadable : Char := '\x00'

/-- Whether so many characters can be read, or as many as there are. -/
def canRead (count : Nat) (text : List Char) : Bool := !(text.take count).contains unreadable

/-- A character that ends a line. A carriage return stands only before a line feed; it is passed over, and the line feed ends the
line. -/
def isBreak (c : Char) : Bool := c = '\n' || c = '\r' || c = '\u2028' || c = '\u2029'

/-- A space or a tabulator. -/
def isGap (c : Char) : Bool := c = ' ' || c = '\t'

/-- Whether a word ends before some characters: at a space, a tabulator, a line break or the end of the text. -/
def endsWord : List Char → Bool
  | [] => true
  | c :: _ => isGap c || isBreak c

/-- Whether three marks of a kind stand on their own before some characters. -/
def isTriple (mark : Char) : List Char → Bool
  | a :: b :: c :: rest => a = mark && b = mark && c = mark && endsWord rest
  | _ => false

/-- Whether a document is begun or ended at a place. -/
def Cursor.atDocumentMark (c : Cursor) : Bool := c.mark.column = 0 && (isTriple '-' c.rest || isTriple '.' c.rest)

/-- A character of a name: an ASCII letter or digit, a hyphen or a low line. -/
def isNameChar (c : Char) : Bool := c.isAlphanum || c = '-' || c = '_'

/-- The value of a hexadecimal digit. -/
def hexDigit? (c : Char) : Option Nat :=
  if c.isDigit then some (c.toNat - '0'.toNat)
  else if 'a' ≤ c && c ≤ 'f' then some (c.toNat - 'a'.toNat + 10)
  else if 'A' ≤ c && c ≤ 'F' then some (c.toNat - 'A'.toNat + 10)
  else none

end ReplaceRules.Yaml
