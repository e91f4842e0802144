import ReplaceRules.Fallback
import ReplaceRules.Table

/-!
# Transducers

A transducer replaces the symbols of an input in one pass from left to right. It is compiled from a set of rules: the rules
become patterns, walking the environments gives states and edges, carry states and fallback edges complete them, and the table
is made of all edges. `Construction` holds what these stages make; a transducer keeps what a run needs.
-/

namespace ReplaceRules

/-- What the stages of compiling make. -/
structure Construction where
  patterns : Patterns
  alphabet : Alphabet
  /-- The states on the way along the environments. -/
  contextStates : StateSet
  /-- The same states, and the carry states after them. -/
  states : StateSet
  /-- The edges along the environments. -/
  along : List Edge
  fallbacks : List Edge
  deriving Repr

/-- Compiles a set of rules up to the edges. -/
def Construction.ofRules (r : RuleSet) : Construction :=
  let patterns := Patterns.ofRules r
  let alphabet := Alphabet.ofSymbols patterns.symbols
  let contextStates := StateSet.ofRules r
  let states := contextStates.close patterns alphabet
  let along := (Move.ofRules r).map (Move.edge patterns contextStates)
  { patterns, alphabet, contextStates, states, along, fallbacks := Edge.fallbacks patterns states alphabet along }

/-- A compiled set of rules. -/
structure Transducer where
  rules : RuleSet
  states : StateSet
  alphabet : Alphabet
  table : Table
  /-- What each state owes when the input ends in it. -/
  finals : List (List Symbol)
  /-- What is written before anything is read. -/
  initialOutput : List Symbol
  deriving Repr

namespace Transducer

/-- What each state of a set owes when the input ends in it: the symbols it holds back, replaced where an occurrence is
complete. -/
def finalsOf (ps : Patterns) (q : StateSet) : List (List Symbol) :=
  q.states.map fun s => (ps.settle s.path s.written s.path.length).output

/-- Compiles a set of rules. -/
def compile (r : RuleSet) : Except TransducerError Transducer :=
  let c := Construction.ofRules r
  match Table.assemble (c.along ++ c.fallbacks) c.states c.alphabet with
  | .error e => .error e
  | .ok table =>
    .ok { rules := r, states := c.states, alphabet := c.alphabet, table
          finals := finalsOf c.patterns c.states, initialOutput := [] }

/-- The same transducer with some symbols, given as a text, to be written before anything is read. -/
def withInitialOutput (t : Transducer) (text : String) : Except TransducerError Transducer :=
  match tokenize text with
  | .error e => .error (.tag e)
  | .ok symbols => .ok { t with initialOutput := symbols }

/-- What a state owes when the input ends in it. -/
def owed (t : Transducer) (state : Nat) : List Symbol := t.finals[state]?.getD []

/-- The symbols that are read, in increasing order. -/
def sigma (t : Transducer) : List Symbol := sortedSymbols t.alphabet.symbols

/-- The symbols that are written by some transition or owed by some state, in increasing order. -/
def gamma (t : Transducer) : List Symbol :=
  sortedSymbols (t.table.transitions.flatMap (·.2.2.output) ++ t.finals.flatten)

end Transducer

end ReplaceRules
