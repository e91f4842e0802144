import ReplaceRules.State

/-!
# Edges

An edge says what a machine writes and where it goes when it reads a symbol in a state. The edges along the contexts come from
moves: a move either advances to the state for the extended path, or is provisional and leads back to the initial state,
writing all that was held back. Every environment is walked along its left side, then for each pair along the input and the
right side; each state that is passed gets a provisional move on the wildcard.
-/

namespace ReplaceRules

/-- What happens when a symbol is read in a state. `replaces` tells whether a replaced symbol is written. -/
structure Edge where
  source : Nat
  input : Symbol
  output : List Symbol
  target : Nat
  replaces : Bool
  deriving DecidableEq, Repr

/-- A step from the state with a path on a symbol: on to the extended path, or provisionally back to the start. -/
structure Move where
  path : List Symbol
  symbol : Symbol
  advances : Bool
  deriving DecidableEq, Repr

namespace Move

/-- The path with the symbol read. -/
def window (m : Move) : List Symbol := m.path ++ [m.symbol]

/-- The moves that follow a sequence of symbols from a path. -/
def along (path : List Symbol) : List Symbol → List Move
  | [] => []
  | s :: rest => ⟨path, .wildcard, false⟩ :: ⟨path, s, true⟩ :: along (path ++ [s]) rest

/-- The moves that read the input of a pair and the right side of its context. The last symbol completes the pattern and leads
back to the start. -/
def throughFocus (path : List Symbol) (input : Symbol) (right : List Symbol) : List Move :=
  match right.getLast? with
  | none => [⟨path, input, false⟩]
  | some last =>
    let start := path ++ [input]
    let stop := start ++ right.dropLast
    ⟨path, input, true⟩ :: along start right.dropLast ++ [⟨stop, .wildcard, false⟩, ⟨stop, last, false⟩]

/-- The moves of one environment. -/
def ofContext (pairs : List Pair) (c : Context) : List Move :=
  along [] c.left ++ ⟨c.left, .wildcard, false⟩ :: pairs.flatMap fun p => throughFocus c.left p.input c.right

/-- The moves along all environments of a set of rules. -/
def ofRules (r : RuleSet) : List Move := r.environments.flatMap (ofContext r.pairs)

/-- The edge of a move between two states of a set. -/
def edge (ps : Patterns) (q : StateSet) (m : Move) : Edge :=
  let source := (q.find? m.path).getD 0
  let target := if m.advances then (q.find? m.window).getD 0 else 0
  let stop := if m.advances then (q.state target).written else m.window.length
  let settled := ps.settle m.window (q.state source).written stop
  ⟨source, m.symbol, settled.output, target, settled.replaced⟩

end Move

/-- The states on the way along the environments of a set of rules. -/
def StateSet.ofRules (r : RuleSet) : StateSet :=
  (StateSet.initial r.shape).internAll (.ofRules r) (((Move.ofRules r).filter (·.advances)).map (·.window))

end ReplaceRules
