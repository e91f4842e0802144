import ReplaceRules.Text.Emoji

/-!
# Emoji sequences

Several emoji characters may be drawn as one picture of two columns: an emoji with a skin tone, two letters that make a flag, a
flag with the tags of a region, and pictures that are joined by zero width joiners. Columns are counted from the end of a text,
so what is known of a sequence is its last part, and the question is what a character before that part adds.
-/

namespace ReplaceRules

/-- The last part of an emoji sequence. -/
inductive EmojiPart where
  /-- A picture. -/
  | picture
  /-- A skin tone. -/
  | skinTone
  /-- One letter of a flag. -/
  | flagLetter
  /-- Two letters of flags or more. -/
  | flagLetters
  /-- A joiner before a picture. -/
  | joined
  /-- The frame of a keycap before a joiner. -/
  | joinedKeycap
  /-- Letters of flags before a joiner. -/
  | joinedFlags (count : Nat)
  /-- The letters and digits that name a region, and the mark that ends them, before a joiner. -/
  | joinedRegion (letters digits : Nat)
  deriving DecidableEq, Repr

namespace EmojiPart

/-- The sequence that a character may be the last part of. -/
def ofChar? (c : Char) : Option EmojiPart :=
  if isFlagLetter c then some .flagLetter
  else if isSkinTone c then some .skinTone
  else if isEmoji c then some .picture
  else none

/-- Whether a selector may stand before the part. -/
def bearsSelector : EmojiPart → Bool
  | .joined | .joinedKeycap => true
  | _ => false

/-- Whether the part is a picture to which another one can be joined. A flag has two letters. -/
def bearsJoiner : EmojiPart → Bool
  | .picture | .skinTone | .flagLetters => true
  | .joinedFlags count => count ≥ 2
  | _ => false

/-- The columns that a character adds before a part of a sequence, and the part that they make. None if the character does not
belong to the sequence. The letters before a joiner are paired from the first one on: the flag next to the joiner belongs to the
picture and adds nothing, an earlier flag takes two columns, and a letter without a partner next to the joiner takes one. -/
def before? (c : Char) (part : EmojiPart) : Option (Int × EmojiPart) :=
  if part.bearsJoiner && c = '\u200d' then some (0, .joined)
  else
    match part with
    | .skinTone => if isSkinToneBase c then some (0, .picture) else none
    | .flagLetter | .flagLetters => if isFlagLetter c then some (1, .flagLetters) else none
    | .joined =>
      if c = '\u20e3' then some (0, .joinedKeycap)
      else if isFlagLetter c then some (1, .joinedFlags 1)
      else if isSkinTone c then some (0, .skinTone)
      else if c.toNat = 0xe007f then some (0, .joinedRegion 0 0)
      else if isEmoji c then some (0, .picture)
      else none
    | .joinedFlags count =>
      if isFlagLetter c then some (if count % 2 = 1 then -1 else 3, .joinedFlags (count + 1)) else none
    | .joinedRegion letters digits =>
      if inRanges [(0xe0061, 0xe007a)] c.toNat && digits = 0 && letters < 6 then some (0, .joinedRegion (letters + 1) 0)
      else if inRanges [(0xe0030, 0xe0039)] c.toNat && letters ≤ 4 && digits < 3 then
        some (0, .joinedRegion letters (digits + 1))
      else if c.toNat = 0x1f3f4 && (digits = 3 || (digits = 0 && letters ≥ 3)) then some (0, .picture)
      else none
    | .picture | .joinedKeycap => none

end EmojiPart

end ReplaceRules
