import ReplaceRules.Symbol
import ReplaceRules.Text.Blank
import ReplaceRules.Text.Quoted

/-!
# Reading symbols from a text

Symbols are separated by blanks. A bracketed tag belongs to one symbol even where it contains blanks; tags do not nest. A text
with a bracket that has no partner is refused, and the error says where: at the byte offset of the offending bracket.

`Tokens.scan` reads a text from left to right and returns the symbols that are complete before the first fault, together with
that fault. `tokenize` and `tokens` are views of it: all symbols or the error, and the symbols with the error as the last item.

A `TokenReader` reads the same items one at a time, as they are asked for. It knows what of the text is left, and no more: whether
a tag is open is known only while a symbol is read.
-/

namespace ReplaceRules

/-- What is wrong with a bracket. -/
inductive TagFault where
  | unclosed
  | unexpectedClose
  | nested
  deriving DecidableEq, Repr

/-- A bracket without a partner: the text that was read and the byte offset of the bracket in it. -/
structure TagError where
  fault : TagFault
  source : String
  position : Nat
  deriving DecidableEq, Repr

/-- The wording of a fault. -/
def TagFault.describe : TagFault → String
  | .unclosed => "Unclosed '['"
  | .unexpectedClose => "Unexpected ']'"
  | .nested => "Nested '['"

/-- The wording of a bracket error. -/
def TagError.message (e : TagError) : String :=
  e.fault.describe ++ " at position " ++ toString e.position ++ " in " ++ quoted e.source

namespace Tokens

/-- The symbol made of the characters read so far, the last one first, if there are any. -/
def complete : List Char → List Symbol
  | [] => []
  | token => [⟨String.ofList token.reverse⟩]

/-- Reads the characters from `position` on. `opened` is the place of the bracket of an open tag, `token` holds the characters
of the symbol being read, the last one first. -/
def scan (opened : Option Nat) (token : List Char) (position : Nat) : List Char → List Symbol × Option (TagFault × Nat)
  | [] =>
    match opened with
    | some place => ([], some (.unclosed, place))
    | none => (complete token, none)
  | c :: rest =>
    let next := position + c.utf8Size
    match opened with
    | none =>
      if isBlank c then
        let later := scan none [] next rest
        (complete token ++ later.1, later.2)
      else if c = '[' then scan (some position) (c :: token) next rest
      else if c = ']' then ([], some (.unexpectedClose, position))
      else scan none (c :: token) next rest
    | some place =>
      if c = '[' then ([], some (.nested, position))
      else if c = ']' then scan none (c :: token) next rest
      else scan (some place) (c :: token) next rest

end Tokens

/-- The symbols of a text, or the first bracket error. -/
def tokenize (source : String) : Except TagError (List Symbol) :=
  match Tokens.scan none [] 0 source.toList with
  | (symbols, none) => .ok symbols
  | (_, some (fault, position)) => .error ⟨fault, source, position⟩

/-- The symbols of a text one by one; the first bracket error ends them. -/
def tokens (source : String) : List (Except TagError Symbol) :=
  match Tokens.scan none [] 0 source.toList with
  | (symbols, none) => symbols.map .ok
  | (symbols, some (fault, position)) => symbols.map .ok ++ [.error ⟨fault, source, position⟩]

/-! ## One item at a time -/

namespace Tokens

/-- Leaves out the blanks before a symbol: what is left of the text after them, with the place where it begins. -/
def skipBlanks (position : Nat) : List Char → Nat × List Char
  | [] => (position, [])
  | c :: rest => if isBlank c then skipBlanks (position + c.utf8Size) rest else (position, c :: rest)

/-- Reads on in a symbol, up to a blank outside a tag or to the end of the text: the characters of the symbol, the last one first,
and what is left of the text, with the place where it begins. -/
def takeToken (opened : Option Nat) (token : List Char) (position : Nat) :
    List Char → Except (TagFault × Nat) (List Char × Nat × List Char)
  | [] =>
    match opened with
    | some place => .error (.unclosed, place)
    | none => .ok (token, position, [])
  | c :: rest =>
    if isBlank c && opened.isNone then .ok (token, position, c :: rest)
    else if c = '[' then
      if opened.isSome then .error (.nested, position)
      else takeToken (some position) (c :: token) (position + c.utf8Size) rest
    else if c = ']' then
      if opened.isNone then .error (.unexpectedClose, position)
      else takeToken none (c :: token) (position + c.utf8Size) rest
    else takeToken opened (c :: token) (position + c.utf8Size) rest

end Tokens

/-- A text that is read symbol by symbol: what of it is left to read, and the place where that begins. -/
structure TokenReader where
  source : String
  position : Nat
  rest : List Char

namespace TokenReader

/-- Nothing of the text has been read. -/
def ofText (source : String) : TokenReader := ⟨source, 0, source.toList⟩

/-- The next symbol or the error, if there is any, and the reader after it. An error leaves nothing to read. -/
def next (r : TokenReader) : Option (Except TagError Symbol) × TokenReader :=
  match Tokens.skipBlanks r.position r.rest with
  | (position, []) => (none, ⟨r.source, position, []⟩)
  | (position, c :: rest) =>
    match Tokens.takeToken none [] position (c :: rest) with
    | .ok (token, position, rest) => (some (.ok ⟨String.ofList token.reverse⟩), ⟨r.source, position, rest⟩)
    | .error (fault, position) => (some (.error ⟨fault, r.source, position⟩), ⟨r.source, r.source.utf8ByteSize, []⟩)

/-- What a reader returns when it is asked again and again. -/
def item (r : TokenReader) : Nat → Option (Except TagError Symbol)
  | 0 => r.next.1
  | n + 1 => item r.next.2 n

end TokenReader

end ReplaceRules
