import ReplaceRules.Text.Width

/-!
# Ligatures

In some scripts two or three letters are drawn as one, so that they take less columns than each on its own. Columns are counted
from the end of a text, so what is known of a ligature is its last part, and the question is what a character before that part
adds.

A zero width joiner asks for some ligatures. It and the ignorable marks may stand between the parts of most of them; between
the parts of the Arabic one, any mark may stand that does not break the joining of letters.
-/

namespace ReplaceRules

/-- The last part of a ligature. `joined` tells that a joiner stands before it. -/
inductive Ligature where
  /-- An Arabic alef, which a lam before it makes a ligature with. -/
  | alef
  /-- The Hebrew lamed, which makes a ligature with an alef if it is joined. -/
  | lamed (joined : Bool)
  /-- The Buginese ya, which makes a ligature with a letter a and a vowel sign i if it is joined. -/
  | ya (joined : Bool)
  /-- A vowel sign i before a joined ya. -/
  | signBeforeYa
  /-- The Old Turkic orkhon i, which makes a ligature with an orkhon ash if it is joined. -/
  | orkhonI (joined : Bool)
  /-- A Tifinagh consonant, which makes a ligature with another one if it is joined by a joiner or by the mark for that. -/
  | consonant (joined : Bool)
  /-- The joining mark of Tifinagh before a consonant. -/
  | markedConsonant
  /-- A Lisu tone letter that may be the second of two. -/
  | toneLetter
  /-- A Khmer letter that is drawn below another one after the sign for that. -/
  | khmerLetter
  /-- The Kirat Rai vowel signs e and ai, which other vowel signs before them are drawn together with. -/
  | signE
  | signAi
  deriving DecidableEq, Repr

/-- The ranges of the Arabic letters of the joining group Alef. -/
def alefRanges : List (Nat × Nat) :=
  [(0x622, 0x623), (0x625, 0x625), (0x627, 0x627), (0x671, 0x673), (0x675, 0x675), (0x773, 0x774), (0x870, 0x882)]

/-- The ranges of the Arabic letters of the joining group Lam. -/
def lamRanges : List (Nat × Nat) :=
  [(0x644, 0x644), (0x6b5, 0x6b8), (0x76a, 0x76a), (0x8a6, 0x8a6), (0x8c7, 0x8c7)]

/-- The ranges of the Khmer letters that may be drawn below another one. -/
def khmerRanges : List (Nat × Nat) :=
  [(0x1780, 0x1782), (0x1784, 0x1787), (0x1789, 0x178c), (0x178e, 0x1793), (0x1795, 0x1798), (0x179b, 0x179d),
   (0x17a0, 0x17a0), (0x17a2, 0x17a2), (0x17a7, 0x17a7), (0x17ab, 0x17ac), (0x17af, 0x17af)]

/-- The ranges of the Tifinagh consonants. -/
def tifinaghRanges : List (Nat × Nat) := [(0x2d31, 0x2d65), (0x2d6f, 0x2d6f)]

/-- The ranges of the combining marks that are ignorable. -/
def ignorableMarkRanges : List (Nat × Nat) :=
  [(0x34f, 0x34f), (0x17b4, 0x17b5), (0x180b, 0x180d), (0x180f, 0x180f), (0xfe00, 0xfe0f), (0xe0100, 0xe01ef)]

/-- The ranges of the characters that take no column and are not of the joining type Transparent. -/
def separatingRanges : List (Nat × Nat) :=
  [(0x605, 0x605), (0x890, 0x891), (0x8e2, 0x8e2), (0x9be, 0x9be), (0x9d7, 0x9d7), (0xb3e, 0xb3e), (0xb57, 0xb57),
   (0xbbe, 0xbbe), (0xbd7, 0xbd7), (0xcc0, 0xcc0), (0xcc2, 0xcc2), (0xcc7, 0xcc8), (0xcca, 0xccb), (0xcd5, 0xcd6),
   (0xd3e, 0xd3e), (0xd4e, 0xd4e), (0xd57, 0xd57), (0xdcf, 0xdcf), (0xddf, 0xddf), (0x1160, 0x11ff),
   (0x1715, 0x1715), (0x1734, 0x1734), (0x180e, 0x180e), (0x1b35, 0x1b35), (0x1b3b, 0x1b3b), (0x1b3d, 0x1b3d),
   (0x1b43, 0x1b44), (0x1baa, 0x1baa), (0x1bf2, 0x1bf3), (0x200c, 0x200d), (0x2065, 0x2069), (0x302e, 0x302f),
   (0x3164, 0x3164), (0xa8fa, 0xa8fa), (0xa953, 0xa953), (0xa9c0, 0xa9c0), (0xd7b0, 0xd7c6), (0xd7cb, 0xd7fb),
   (0xffa0, 0xffa0), (0xfff0, 0xfff8), (0x111c0, 0x111c0), (0x111c2, 0x111c3), (0x11235, 0x11235),
   (0x1133e, 0x1133e), (0x1134d, 0x1134d), (0x11357, 0x11357), (0x113b8, 0x113b8), (0x113c2, 0x113c2),
   (0x113c5, 0x113c5), (0x113c7, 0x113c9), (0x113cf, 0x113cf), (0x113d1, 0x113d1), (0x114b0, 0x114b0),
   (0x114bd, 0x114bd), (0x115af, 0x115af), (0x116b6, 0x116b6), (0x11930, 0x11930), (0x1193d, 0x1193d),
   (0x1193f, 0x1193f), (0x11941, 0x11941), (0x11a84, 0x11a89), (0x11d46, 0x11d46), (0x11f02, 0x11f02),
   (0x11f41, 0x11f41), (0x16ff0, 0x16ff1), (0x1d165, 0x1d166), (0x1d16d, 0x1d172), (0xe0000, 0xe0000),
   (0xe0002, 0xe001f), (0xe0080, 0xe00ff), (0xe01f0, 0xe0fff)]

/-- Whether a character takes no column and does not break the joining of Arabic letters. -/
def isJoiningMark (c : Char) : Bool := charColumns c = 0 && !inRanges separatingRanges c.toNat

namespace Ligature

/-- The ligature that a character may be the last part of. -/
def ofChar? (c : Char) : Option Ligature :=
  if inRanges alefRanges c.toNat then some .alef
  else if c = '\u05dc' then some (.lamed false)
  else if inRanges khmerRanges c.toNat then some .khmerLetter
  else if c = '\u1a10' then some (.ya false)
  else if inRanges tifinaghRanges c.toNat then some (.consonant false)
  else if c = '\ua4fc' || c = '\ua4fd' then some .toneLetter
  else if c.toNat = 0x10c03 then some (.orkhonI false)
  else if c.toNat = 0x16d67 then some .signE
  else if c.toNat = 0x16d68 then some .signAi
  else none

/-- Whether a variation selector may stand before the part. -/
def bearsSelector : Ligature → Bool
  | .signE | .signAi => false
  | _ => true

/-- Whether a joiner or an ignorable mark may stand before the part. -/
def bearsMarks : Ligature → Bool
  | .alef | .signE | .signAi => false
  | _ => true

/-- The part after a joiner. -/
def join : Ligature → Ligature
  | .lamed _ => .lamed true
  | .ya _ => .ya true
  | .orkhonI _ => .orkhonI true
  | .consonant _ => .consonant true
  | part => part

/-- The columns that a character adds before a part of a ligature, and the part that they make if the ligature can go on before
it. None if the character does not belong to the ligature. -/
def before? (c : Char) (part : Ligature) : Option (Int × Option Ligature) :=
  if part.bearsMarks && c = '\u200d' then some (0, some part.join)
  else if part.bearsMarks && inRanges ignorableMarkRanges c.toNat then some (0, some part)
  else
    match part with
    | .alef =>
      if inRanges lamRanges c.toNat then some (0, none)
      else if isJoiningMark c then some (0, some .alef)
      else none
    | .lamed true => if c = '\u05d0' then some (0, none) else none
    | .ya true => if c = '\u1a17' then some (0, some .signBeforeYa) else none
    | .signBeforeYa => if c = '\u1a15' then some (0, none) else none
    | .orkhonI true => if c.toNat = 0x10c32 then some (0, none) else none
    | .consonant joined =>
      if c = '\u2d7f' then some (1, some .markedConsonant)
      else if joined && inRanges tifinaghRanges c.toNat then some (0, none)
      else none
    | .markedConsonant => if inRanges tifinaghRanges c.toNat then some (-1, none) else none
    | .toneLetter => if inRanges [(0xa4f8, 0xa4fb)] c.toNat then some (0, none) else none
    | .khmerLetter => if c = '\u17d2' then some (-1, none) else none
    | .signE =>
      if c.toNat = 0x16d63 || c.toNat = 0x16d69 then some (0, none)
      else if c.toNat = 0x16d67 then some (0, some .signAi)
      else if c.toNat = 0x16d68 then some (1, some .signE)
      else none
    | .signAi => if c.toNat = 0x16d63 then some (0, none) else none
    | .lamed false | .ya false | .orkhonI false => none

end Ligature

end ReplaceRules
