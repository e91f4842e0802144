import ReplaceRules.Text.Emoji.Sequence
import ReplaceRules.Text.Ligature

/-!
# How many terminal columns a text takes

The columns of a text are those of its characters, except that some take less or more beside others: a carriage return before a
line feed takes none, the parts of a ligature or of an emoji sequence are drawn as one, and a variation selector makes the
character before it wide or narrow.

All of that depends on what follows a character. So the text is read from its end, and `Following` is what is known of the part
that has been read.
-/

namespace ReplaceRules

/-- What a text may begin with that the columns of a character before it depend on. -/
inductive Beginning where
  | plain
  | lineFeed
  | ligature (part : Ligature)
  | emoji (part : EmojiPart)
  deriving DecidableEq, Repr

/-- A variation selector that may change the columns of the character before it. -/
inductive Selector where
  /-- The selector that draws a character as an emoji. -/
  | emoji
  /-- The selector that draws a character as a text. -/
  | text
  /-- The selector that draws a quotation mark two columns wide. -/
  | wide
  deriving DecidableEq, Repr

/-- What is known of the text after a character: what it begins with behind the selector, and the selector. -/
structure Following where
  beginning : Beginning := .plain
  selector : Option Selector := none
  deriving DecidableEq, Repr

namespace Selector

/-- The selector that a character is. -/
def ofChar? (c : Char) : Option Selector :=
  if c = '\ufe0f' then some .emoji
  else if c = '\ufe0e' then some .text
  else if c = '\ufe01' then some .wide
  else none

/-- Whether a ligature or an emoji sequence goes on before a selector. -/
def letsPass : Selector → Beginning → Bool
  | _, .ligature part => part.bearsSelector
  | .emoji, .emoji part => part.bearsSelector
  | _, _ => false

end Selector

namespace Beginning

/-- What a character is on its own. -/
def ofChar (c : Char) : Beginning :=
  if c = '\n' then .lineFeed
  else
    match Ligature.ofChar? c with
    | some part => .ligature part
    | none =>
      match EmojiPart.ofChar? c with
      | some part => .emoji part
      | none => .plain

/-- The columns that a character adds before the beginning of a text, and what the text begins with then. -/
def before (c : Char) (b : Beginning) : Int × Beginning :=
  let alone := ((charColumns c : Int), ofChar c)
  match b with
  | .plain => alone
  | .lineFeed => if c = '\r' then (0, .plain) else alone
  | .ligature part =>
    match part.before? c with
    | some (columns, some part) => (columns, .ligature part)
    | some (columns, none) => (columns, .plain)
    | none => alone
  | .emoji part =>
    match part.before? c with
    | some (columns, part) => (columns, .emoji part)
    | none => alone

end Beginning

namespace Following

/-- The text without its selector, before a character that the selector does not fit. Only a ligature goes on. -/
def withoutSelector (f : Following) : Beginning :=
  match f.selector, f.beginning with
  | none, b => b
  | some _, .ligature part => .ligature part
  | some _, _ => .plain

/-- The columns that a character takes before a selector that fits it. An emoji that is joined to the one after it takes none. -/
def selected? (c : Char) (f : Following) : Option (Int × Beginning) :=
  match f.selector with
  | some .emoji =>
    if isSelectable c then
      match f.beginning with
      | .emoji _ => some (0, .emoji .picture)
      | _ => some (2, .emoji .picture)
    else none
  | some .text => if isNarrowable c then some (1, .plain) else none
  | some .wide => if "\u2018\u2019\u201c\u201d".contains c then some (2, .plain) else none
  | none => none

/-- The columns that a character adds before a text, and what is known of the text with it. -/
def before (c : Char) (f : Following) : Int × Following :=
  match selected? c f with
  | some (columns, beginning) => (columns, { beginning })
  | none =>
    match Selector.ofChar? c with
    | some selector =>
      let b := if f.selector = some .emoji then f.withoutSelector else f.beginning
      (0, { beginning := if selector.letsPass b then b else .plain, selector := some selector })
    | none =>
      let (columns, beginning) := f.withoutSelector.before c
      (columns, { beginning })

end Following

/-- The columns of some characters on one line, and what is known of them. -/
def columnsOf : List Char → Int × Following
  | [] => (0, {})
  | c :: rest =>
    let (columns, following) := columnsOf rest
    let (added, following) := following.before c
    (columns + added, following)

/-- The columns of a text on one line. -/
def columns (text : String) : Nat := (columnsOf text.toList).1.toNat

end ReplaceRules
