import ReplaceRules.Text.Unprintable
import ReplaceRules.Text.Extending

/-!
# Quoted text

How a text is shown inside a message: between double quotes, with a backslash before a quote or a backslash, short names for
the four common controls, and the number in hexadecimal for every other character that could not be read off a page.
-/

namespace ReplaceRules

/-- A number in lower case hexadecimal digits. -/
def hexadecimal (n : Nat) : String := String.ofList (Nat.toDigits 16 n)

/-- A text in braces. -/
def inBraces (text : String) : String := String.singleton '{' ++ text ++ String.singleton '}'

/-- A character as it stands between quotes. -/
def quotedChar (c : Char) : String :=
  if c = '"' then "\\\""
  else if c = '\\' then "\\\\"
  else if c = '\n' then "\\n"
  else if c = '\r' then "\\r"
  else if c = '\t' then "\\t"
  else if c = '\x00' then "\\0"
  else if isUnprintable c || isDrawnOver c then "\\u" ++ inBraces (hexadecimal c.toNat)
  else c.toString

/-- A text between quotes. -/
def quoted (text : String) : String := "\"" ++ String.join (text.toList.map quotedChar) ++ "\""

/-- A list of texts, each between quotes, in square brackets. -/
def quotedList (texts : List String) : String := "[" ++ ", ".intercalate (texts.map quoted) ++ "]"

end ReplaceRules
