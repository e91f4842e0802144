import ReplaceRules.Symbol

/-!
# Alphabets

The symbols a machine knows, the wildcard among them, in increasing order and each once. A symbol is referred to by its place;
every other symbol is read as the wildcard.
-/

namespace ReplaceRules

/-- The symbols a machine knows. -/
structure Alphabet where
  symbols : List Symbol
  deriving DecidableEq, Repr

namespace Alphabet

/-- The alphabet of some symbols and the wildcard. -/
def ofSymbols (symbols : List Symbol) : Alphabet := ⟨sortedSymbols (.wildcard :: symbols)⟩

/-- The number of symbols. -/
def size (a : Alphabet) : Nat := a.symbols.length

/-- The place of a symbol. -/
def find? (a : Alphabet) (s : Symbol) : Option Nat := a.symbols.findIdx? (· = s)

/-- The place of a symbol, or that of the wildcard if the symbol is unknown. -/
def lookup (a : Alphabet) (s : Symbol) : Nat := (a.find? s).getD ((a.find? .wildcard).getD 0)

end Alphabet

end ReplaceRules
