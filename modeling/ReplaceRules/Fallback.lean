import ReplaceRules.Alphabet
import ReplaceRules.Edge

/-!
# Fallback edges and carry states

On a symbol, a machine moves from a state to the state whose path is the longest that ends the path with the symbol appended,
and writes all that was held back before and is not held back there.

A path can be too short: if a symbol that is still held back is already known to be replaced, by an occurrence that starts
before the path, the state would forget it. A carry state is then added, whose path starts with the earliest such occurrence.
Carry states make new windows, and these may need carry states in turn; `close` adds them until none is missing. No path gets
longer than the longest left side and the longest right side together, so there are only finitely many to add, and
`closingRounds` is enough rounds to add them all.
-/

namespace ReplaceRules

namespace StateSet

/-- Where the symbols of a window begin that a state reached by it still holds back. -/
def pendingStart (q : StateSet) (window : List Symbol) (target : Nat) : Nat :=
  window.length - (q.state target).pending.length

/-- Where in a window the carry state begins that is needed when the window leads to a state, if one is needed. -/
def carryStart? (q : StateSet) (ps : Patterns) (window : List Symbol) (target : Nat) : Option Nat :=
  let first := q.pendingStart window target
  let pathStart := window.length - (q.state target).path.length
  let starts := (List.range' first (window.length - first)).filterMap fun position =>
    (ps.occurrence? window position).map (position - ·.focus)
  (starts.filter (· < pathStart)).min?

/-- Adds the carry state that a window needs, if any. -/
def addCarry (ps : Patterns) (q : StateSet) (window : List Symbol) : StateSet :=
  match q.carryStart? ps window (q.longestSuffix window) with
  | some start => q.intern ps (window.drop start)
  | none => q

/-- Adds the carry states that the windows of all states need; windows of states that are added on the way wait for the next
round. -/
def addCarries (ps : Patterns) (alphabet : Alphabet) (q : StateSet) : StateSet :=
  (q.states.flatMap fun s => alphabet.symbols.map (s.path ++ [·])).foldl (addCarry ps) q

/-- Adds carry states for a number of rounds, or until a round adds none. -/
def closeWithin (ps : Patterns) (alphabet : Alphabet) : Nat → StateSet → StateSet
  | 0, q => q
  | rounds + 1, q =>
    let next := q.addCarries ps alphabet
    if next.size = q.size then q else closeWithin ps alphabet rounds next

end StateSet

/-- The length of the longest left side. -/
def Patterns.longestLeft (ps : Patterns) : Nat := (ps.toList.map (·.focus)).foldl max 0

/-- The length of the longest right side. -/
def Patterns.longestRight (ps : Patterns) : Nat := (ps.toList.map fun p => p.symbols.length - p.focus - 1).foldl max 0

/-- More rounds than there are paths of symbols of an alphabet that are as long as a path can get. -/
def Patterns.closingRounds (ps : Patterns) (alphabet : Alphabet) : Nat :=
  Nat.pow (alphabet.size + 1) (ps.longestLeft + ps.longestRight) + 1

/-- Adds carry states until none is missing. -/
def StateSet.close (q : StateSet) (ps : Patterns) (alphabet : Alphabet) : StateSet :=
  q.closeWithin ps alphabet (ps.closingRounds alphabet)

/-- The fallback edge from a state on a symbol. -/
def Edge.fallback (ps : Patterns) (q : StateSet) (source : Nat) (symbol : Symbol) : Edge :=
  let state := q.state source
  let window := state.path ++ [symbol]
  let target := q.longestSuffix window
  let settled := ps.settle window state.written (q.pendingStart window target)
  ⟨source, symbol, settled.output, target, settled.replaced⟩

/-- The fallback edges for all states and symbols on which no edge leads on along a context. -/
def Edge.fallbacks (ps : Patterns) (q : StateSet) (alphabet : Alphabet) (along : List Edge) : List Edge :=
  let advancing := along.filter (·.target ≠ 0)
  (List.range q.size).flatMap fun source =>
    let leaving := advancing.filter (·.source = source)
    (alphabet.symbols.filter fun s => !leaving.any (·.input = s)).map (Edge.fallback ps q source)

end ReplaceRules
