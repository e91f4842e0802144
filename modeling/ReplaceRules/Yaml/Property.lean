import ReplaceRules.Yaml.Cursor

/-!
# YAML node properties and directives

Reading anchors, aliases, tags and directives. Of a tag and of a tag directive only the handle is returned. A reader returns
nothing where the text is not well-formed.
-/

namespace ReplaceRules.Yaml

/-- Reads the name of an anchor or an alias: it is not empty, and a word or one of a few marks ends it. -/
def readAnchor (c : Cursor) : Option Cursor :=
  let (name, c) := c.span isNameChar
  let ends := endsWord c.rest || c.rest.head?.any fun d => d = '}' || "?:,]%@\u0060".contains d
  if name.isEmpty || !ends then none else some c

/-- A character that may stand in a tag as it is; `verbatim` tells that the tag is written between angle brackets. -/
def isTagChar (verbatim : Bool) (c : Char) : Bool :=
  isNameChar c || ";/?:@&=+$.!~*'()".contains c || (verbatim && (c = ',' || c = '[' || c = ']'))

/-- Reads the bytes of one escaped character of a tag, each a percent sign and two hexadecimal digits. The first byte says how
many bytes follow it. -/
def readTagEscape (left : Nat) : List Char → Option (Nat × List Char)
  | '%' :: a :: b :: rest =>
    match hexDigit? a, hexDigit? b with
    | some high, some low =>
      let byte := high * 16 + low
      if left > 0 then
        if byte / 64 ≠ 2 then none
        else if left = 1 then some (3, rest)
        else (readTagEscape (left - 1) rest).map fun (count, rest) => (count + 3, rest)
      else if byte < 0x80 then some (3, rest)
      else
        let following := if byte / 32 = 6 then 1 else if byte / 16 = 14 then 2 else if byte / 8 = 30 then 3 else 0
        if following = 0 then none
        else (readTagEscape following rest).map fun (count, rest) => (count + 3, rest)
    | _, _ => none
  | _ => none

/-- Reads the characters of a tag and counts those it stands for. `fuel` is the number of characters that are left at most. -/
def readTagChars (verbatim : Bool) : Nat → Cursor → Option (Nat × Cursor)
  | 0, c => some (0, c)
  | fuel + 1, c =>
    match c.rest with
    | '%' :: _ =>
      match readTagEscape 0 c.rest with
      | none => none
      | some (count, _) => (readTagChars verbatim fuel (c.skip count)).map fun (n, c) => (n + 1, c)
    | d :: _ =>
      if isTagChar verbatim d then (readTagChars verbatim fuel (c.skip 1)).map fun (n, c) => (n + 1, c)
      else some (0, c)
    | [] => some (0, c)

/-- Reads the part of a tag after its handle. -/
def readTagRest (verbatim : Bool) (c : Cursor) : Option (Nat × Cursor) := readTagChars verbatim c.rest.length c

/-- Reads an exclamation mark, the name after it and the exclamation mark that may end it. -/
def readHandle (c : Cursor) : Option (String × Cursor) :=
  match c.rest with
  | '!' :: _ =>
    let (name, c) := (c.skip 1).span isNameChar
    if c.rest.head? = some '!' then some (String.ofList ('!' :: name ++ ['!']), c.skip 1)
    else some (String.ofList ('!' :: name), c)
  | _ => none

/-- Reads a tag and returns its handle. A tag between angle brackets has none, and neither has the tag that is a single
exclamation mark. -/
def readTag (inFlow : Bool) (c : Cursor) : Option (String × Cursor) := do
  let (handle, c) ←
    if c.rest.take 2 = ['!', '<'] then
      let (length, c) ← readTagRest true (c.skip 2)
      if length = 0 || c.rest.head? ≠ some '>' then none else some ("", c.skip 1)
    else
      let (handle, c) ← readHandle c
      let (length, c) ← readTagRest false c
      if handle.length > 1 && handle.endsWith "!" then (if length = 0 then none else some (handle, c))
      else if handle = "!" && length = 0 then some ("", c)
      else some ("!", c)
  if endsWord c.rest || (inFlow && c.rest.head? = some ',') then some (handle, c) else none

/-- Reads a number of nine digits at most. -/
def readNumber (c : Cursor) : Option (Nat × Cursor) :=
  let (digits, c) := c.span Char.isDigit
  if digits.isEmpty || digits.length > 9 then none
  else some (digits.foldl (fun n d => n * 10 + (d.toNat - '0'.toNat)) 0, c)

/-- Reads the two numbers of a version directive. -/
def readVersion (c : Cursor) : Option (Nat × Nat × Cursor) := do
  let (major, c) ← readNumber (c.span isGap).2
  if c.rest.head? ≠ some '.' then none
  else
    let (minor, c) ← readNumber (c.skip 1)
    some (major, minor, c)

/-- Reads the handle and the meaning of a tag directive and returns the handle. -/
def readTagDirective (c : Cursor) : Option (String × Cursor) := do
  let (handle, c) ← readHandle (c.span isGap).2
  if handle ≠ "!" && !(handle.length > 1 && handle.endsWith "!") then none
  else if !c.rest.head?.any isGap then none
  else
    let (length, c) ← readTagRest true (c.span isGap).2
    if length = 0 || !endsWord c.rest then none else some (handle, c)

end ReplaceRules.Yaml
