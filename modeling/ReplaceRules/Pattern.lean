import ReplaceRules.Rule.Set

/-!
# Patterns

A pair in a context, written out as one sequence: the left side of the context, the input, the right side. The input is the
focus of the pattern. A symbol of a text is replaced if it is the focus of an occurrence of some pattern in the text; every
output of a machine is derived from this rule.

While a text is read from left to right, a partial match that has seen its focus may still be completed by what follows, so
its focus cannot be written yet. `written` is the number of symbols of a text that no such match holds back.
-/

namespace ReplaceRules

/-- A sequence of symbols, one of which is replaced by the output wherever the sequence occurs. -/
structure Pattern where
  symbols : List Symbol
  focus : Nat
  output : Symbol
  deriving DecidableEq, Repr, Inhabited

/-- The pattern of a pair in a context. -/
def Pattern.ofPair (c : Context) (p : Pair) : Pattern := ⟨c.left ++ p.input :: c.right, c.left.length, p.output⟩

/-- Whether the sides of a context stand around a position of a window. -/
def Context.standsAround (c : Context) (window : List Symbol) (position : Nat) : Bool :=
  c.left.length ≤ position && c.left.isPrefixOf (window.drop (position - c.left.length)) &&
    c.right.isPrefixOf (window.drop (position + 1))

/-- Whether a path begins a pattern without completing it and has seen its focus. -/
def Pattern.isLive (p : Pattern) (path : List Symbol) : Bool :=
  p.focus < path.length && path.length < p.symbols.length && path.isPrefixOf p.symbols

/-- How many symbols at the start of a text can be written: those before the earliest focus that is held back by a partial match of
some pattern at the end of the text. -/
def Pattern.writtenAmong (patterns : List Pattern) : List Symbol → Nat
  | [] => 0
  | s :: rest =>
    ((patterns.filter (·.isLive (s :: rest))).map (·.focus)).foldl min (writtenAmong patterns rest + 1)

/-- The patterns of a set of rules: each pair in each environment. -/
structure Patterns where
  pairs : List Pair
  environments : List Context
  deriving DecidableEq, Repr

/-- What a machine writes for some positions of a window, and whether a replaced symbol is among it. -/
structure Settled where
  output : List Symbol := []
  replaced : Bool := false
  deriving DecidableEq, Repr, Inhabited

namespace Patterns

/-- The patterns of a set of rules: each pair in each context, or on its own if the set is free. -/
def ofRules (r : RuleSet) : Patterns := ⟨r.pairs, r.environments⟩

/-- The patterns one by one. -/
def toList (ps : Patterns) : List Pattern := ps.environments.flatMap fun c => ps.pairs.map (Pattern.ofPair c)

/-- The symbols of all patterns in increasing order. -/
def symbols (ps : Patterns) : List Symbol := sortedSymbols (ps.toList.flatMap (·.symbols))

/-- How many symbols at the start of a text can be written, whatever follows the text. -/
def written (ps : Patterns) (text : List Symbol) : Nat := Pattern.writtenAmong ps.toList text

/-- A pattern that occurs in a window with its focus on a position: the pair whose input stands there, in the first environment
that stands around it. -/
def occurrence? (ps : Patterns) (window : List Symbol) (position : Nat) : Option Pattern :=
  (window[position]?.bind fun s => ps.pairs.find? (·.input = s)).bind fun p =>
    (ps.environments.find? (·.standsAround window position)).map (Pattern.ofPair · p)

/-- What is written for the positions of a window from `start` up to, but not including, `stop`. -/
def settle (ps : Patterns) (window : List Symbol) (start stop : Nat) : Settled :=
  let found := ((window.zipIdx.take stop).drop start).map fun (s, i) => (s, ps.occurrence? window i)
  { output := found.map fun (s, occurrence) => (occurrence.map (·.output)).getD s
    replaced := found.any (·.2.isSome) }

end Patterns

end ReplaceRules
