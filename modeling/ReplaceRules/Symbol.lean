/-!
# Symbols

The atoms that rules speak about. A symbol is a piece of text that is never taken apart: a letter, a group of letters, or a
bracketed tag such as `[tns = pst]`. Four texts are reserved. The wildcard stands for every symbol a machine does not know, the
boundary for the start and the end of an input, the empty symbol for the missing side of an insertion or a deletion, and the
marker for the place of the replaced symbol inside a context.

Symbols are ordered by their text, code point by code point; `sortedSymbols` is the set of the members of a list in that order.
-/

namespace ReplaceRules

/-- A symbol: a text that is never taken apart. -/
structure Symbol where
  text : String
  deriving DecidableEq, Inhabited, Repr

namespace Symbol

/-- Stands for any symbol outside the alphabet of a machine. -/
def wildcard : Symbol := ⟨"?"⟩

/-- Stands at the start and at the end of an input. -/
def boundary : Symbol := ⟨"$"⟩

/-- The missing side of an insertion or a deletion, and the gap between two symbols. -/
def empty : Symbol := ⟨"Ø"⟩

/-- The place of the replaced symbol inside a context. -/
def marker : Symbol := ⟨"_"⟩

/-- A sentinel belongs to the frame of an input and never to an output. -/
def isSentinel (s : Symbol) : Bool := s = boundary || s = empty

/-- No side of a pair is a reserved symbol. -/
def isReserved (s : Symbol) : Bool := s = wildcard || s = boundary || s = empty || s = marker

/-- Symbols are ordered by the code points of their text. -/
instance : Ord Symbol := ⟨fun a b => compare a.text b.text⟩

instance : Std.TransOrd Symbol := inferInstanceAs (Std.TransCmp (compareOn text))

/-- Symbols that compare as equal are equal. -/
instance : Std.LawfulEqOrd Symbol where
  eq_of_compare {a b} h := by
    have ht : a.text = b.text := Std.LawfulEqOrd.eq_of_compare h
    cases a
    cases b
    exact congrArg Symbol.mk ht

end Symbol

/-- The text of a list of symbols, with one space between every two. -/
def join (symbols : List Symbol) : String := " ".intercalate (symbols.map (·.text))

/-- How an empty path and an empty output are shown. -/
def lambda : String := "λ"

/-- The text of a list of symbols, or λ if it is empty. -/
def joinOrLambda (symbols : List Symbol) : String := if symbols.isEmpty then lambda else join symbols

/-- Puts an empty symbol between every two symbols. -/
def interleave : List Symbol → List Symbol
  | [] => []
  | [s] => [s]
  | s :: t :: rest => s :: .empty :: interleave (t :: rest)

/-- Puts a symbol into an increasing list, unless it is there already. -/
def insertSorted (s : Symbol) : List Symbol → List Symbol
  | [] => [s]
  | t :: rest =>
    match compare s t with
    | .lt => s :: t :: rest
    | .eq => t :: rest
    | .gt => t :: insertSorted s rest

/-- The members of a list, each once, in increasing order. -/
def sortedSymbols (symbols : List Symbol) : List Symbol := symbols.foldr insertSorted []

end ReplaceRules
