import ReplaceRules.Transducer

/-!
# Runs

A run reads the frame of an input. In each step the transition for the state and the symbol is taken; a wildcard in its output
stands for the symbol that was read. When the input has ended, the last state still owes the symbols it holds back.
-/

namespace ReplaceRules

/-- One step of a run. A wildcard in the output has been resolved. -/
structure Step where
  source : Nat
  input : Symbol
  output : List Symbol
  target : Nat
  replaces : Bool
  deriving DecidableEq, Repr

/-- The steps of a run between the initial output and what the last state owed. -/
structure Trace where
  initialOutput : List Symbol
  steps : List Step
  finalOutput : List Symbol
  deriving DecidableEq, Repr

namespace Trace

/-- The state in which the input ended. -/
def finalState (t : Trace) : Nat := (t.steps.getLast?.map (·.target)).getD 0

/-- All that was written, with the sentinels. -/
def tape (t : Trace) : List Symbol := t.initialOutput ++ t.steps.flatMap (·.output) ++ t.finalOutput

/-- What was written, without the sentinels. -/
def output (t : Trace) : List Symbol := t.tape.filter (!·.isSentinel)

end Trace

namespace Transducer

/-- The step from a state on a symbol. -/
def step (t : Transducer) (state : Nat) (symbol : Symbol) : Step :=
  let transition := t.table.get state (t.alphabet.lookup symbol)
  { source := state, input := symbol, target := transition.target, replaces := transition.replaces
    output := transition.output.map fun o => if o = .wildcard then symbol else o }

/-- The steps from a state on a list of symbols. -/
def steps (t : Transducer) (state : Nat) : List Symbol → List Step
  | [] => []
  | s :: rest => t.step state s :: t.steps (t.step state s).target rest

/-- Runs a transducer on a list of symbols. A boundary or an empty symbol in the input is read as what it stands for. -/
def run (t : Transducer) (input : List Symbol) : Trace :=
  let steps := t.steps 0 (t.rules.frame input)
  let last := (steps.getLast?.map (·.target)).getD 0
  { initialOutput := t.initialOutput, steps, finalOutput := t.owed last }

/-- Runs a transducer on a text. The sentinels and the marker are refused. -/
def runText (t : Transducer) (text : String) : Except TransducerError Trace :=
  match tokenize text with
  | .error e => .error (.tag e)
  | .ok symbols =>
    match symbols.find? fun s => s.isSentinel || s = .marker with
    | some s => .error (.rule (.reservedSymbol s.text text))
    | none => .ok (t.run symbols)

/-- What a transducer makes of a list of symbols. -/
def replaceSymbols (t : Transducer) (input : List Symbol) : List Symbol := (t.run input).output

/-- What a transducer makes of a text. -/
def replace (t : Transducer) (text : String) : Except TransducerError String :=
  match t.runText text with
  | .error e => .error e
  | .ok trace => .ok (join trace.output)

end Transducer

end ReplaceRules
