import ReplaceRules.Yaml.Cursor

/-!
# The characters of a YAML file

A YAML file is UTF-8 unless a byte order mark says that it is UTF-16. Only characters that YAML allows in a file may occur in
it. All line breaks but the two Unicode separators are the same to YAML, so they are read as line feeds; only a carriage return
before a line feed is kept.

A file is read in blocks of bytes. A byte that belongs to no character makes its whole block unreadable. A character that the
end of the file cuts off makes only that end unreadable, for its bytes may come with another block until the file has been found
to end. Where a file cannot be read, its characters end with `unreadable`.
-/

namespace ReplaceRules.Yaml

/-- How the characters of a file are written in bytes. -/
inductive Encoding where
  | utf8
  | utf16le
  | utf16be
  deriving DecidableEq, Repr

/-- Whether a character may occur in a file: no control but the tabulator and the line breaks, and no noncharacter. -/
def isAllowed (n : Nat) : Bool :=
  n = 0x09 || n = 0x0a || n = 0x0d || (0x20 ≤ n && n ≤ 0x7e) || n = 0x85 || (0xa0 ≤ n && n ≤ 0xd7ff) ||
    (0xe000 ≤ n && n ≤ 0xfffd) || (0x10000 ≤ n && n ≤ 0x10ffff)

/-- What some bytes begin with: a character and other bytes, the first bytes of a character, or none that may occur. -/
inductive Lead where
  | char (code : Nat) (rest : List Nat)
  | incomplete
  | invalid
  deriving DecidableEq, Repr

/-- What some bytes begin with in UTF-8. The first byte of a character says how many follow it; a character that could be written
in less bytes may not occur. -/
def Lead.ofUtf8 : List Nat → Lead
  | [] => .incomplete
  | b :: rest =>
    let length (following own least : Nat) : Lead :=
      let tail := rest.take following
      let code := tail.foldl (fun n d => n * 64 + d % 64) (b % own)
      if tail.length < following then .incomplete
      else if tail.any (· / 64 ≠ 2) || code < least || !isAllowed code then .invalid
      else .char code (rest.drop following)
    if b < 0x80 then length 0 0x80 0
    else if b / 32 = 6 then length 1 32 0x80
    else if b / 16 = 14 then length 2 16 0x800
    else if b / 8 = 30 then length 3 8 0x10000
    else .invalid

/-- What some bytes begin with in UTF-16. Two bytes make a unit; a high surrogate and the low one after it make one character. -/
def Lead.ofUtf16 (unit : Nat → Nat → Nat) : List Nat → Lead
  | a :: b :: rest =>
    let u := unit a b
    if u / 0x400 = 0x37 then .invalid
    else if u / 0x400 = 0x36 then
      match rest with
      | c :: d :: rest =>
        let v := unit c d
        if v / 0x400 = 0x37 then .char (0x10000 + u % 0x400 * 0x400 + v % 0x400) rest else .invalid
      | _ => .incomplete
    else if isAllowed u then .char u rest
    else .invalid
  | _ => .incomplete

/-- The characters of a block of bytes, and the bytes at its end that are only a part of one; none if a byte belongs to no
character. `fuel` is the number of bytes at least. -/
def readBlockChars (lead : List Nat → Lead) : Nat → List Nat → Option (List Char × List Nat)
  | 0, bytes => some ([], bytes)
  | fuel + 1, bytes =>
    match bytes, lead bytes with
    | [], _ => some ([], [])
    | _, .incomplete => some ([], bytes)
    | _, .invalid => none
    | _, .char code rest => (readBlockChars lead fuel rest).map fun (chars, left) => (Char.ofNat code :: chars, left)

/-- The number of bytes in a block. -/
def blockSize : Nat := 16384

/-- The characters of some bytes, of which the first `size` are in the first block. The bytes that a block leaves over come before
those of the next. Each block has a byte of its own, so `fuel` is the number of bytes at least. -/
def readBlocks (lead : List Nat → Lead) (size : Nat) : Nat → List Nat → List Char
  | 0, _ => []
  | fuel + 1, bytes =>
    match readBlockChars lead blockSize (bytes.take size) with
    | none => [unreadable]
    | some (chars, left) =>
      match bytes.drop size with
      | [] => if left.isEmpty then chars else chars ++ [unreadable]
      | later => chars ++ readBlocks lead blockSize fuel (left ++ later)

/-- The encoding of a file, and the number of bytes of its byte order mark. -/
def Encoding.ofMark (start : List Nat) : Encoding × Nat :=
  if start.take 2 = [0xff, 0xfe] then (.utf16le, 2)
  else if start.take 2 = [0xfe, 0xff] then (.utf16be, 2)
  else if start.take 3 = [0xef, 0xbb, 0xbf] then (.utf8, 3)
  else (.utf8, 0)

/-- What some bytes begin with in an encoding. -/
def Encoding.lead : Encoding → List Nat → Lead
  | .utf8 => .ofUtf8
  | .utf16le => .ofUtf16 fun a b => b * 256 + a
  | .utf16be => .ofUtf16 fun a b => a * 256 + b

/-- Reads all line breaks but the two Unicode separators as line feeds. A carriage return is kept before a line feed. -/
def unifyBreaks : List Char → List Char
  | [] => []
  | '\r' :: '\n' :: rest => '\r' :: '\n' :: unifyBreaks rest
  | c :: rest => (if c = '\r' || c = '\u0085' then '\n' else c) :: unifyBreaks rest

/-- The encoding of a file and its characters. A file of less than three bytes has been found to end when its encoding is known, so
no part of it is readable if its end is not. -/
def decode (bytes : ByteArray) : Encoding × List Char :=
  let bytes := bytes.toList.map (·.toNat)
  let (encoding, mark) := Encoding.ofMark bytes
  let chars := readBlocks encoding.lead (blockSize - mark) (bytes.length + 1) (bytes.drop mark)
  (encoding, if bytes.length < 3 && chars.contains unreadable then [unreadable] else unifyBreaks chars)

end ReplaceRules.Yaml
