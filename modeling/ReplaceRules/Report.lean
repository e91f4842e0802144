import ReplaceRules.Report.Grid
import ReplaceRules.Transducer.Run

/-!
# Reports

What a transducer consists of and what it did in a run, for a reader.
-/

namespace ReplaceRules

/-- Texts in braces, with a comma between every two. -/
def braced (members : List String) : String := inBraces (", ".intercalate members)

namespace Transducer

/-- How a state is shown. -/
def stateText (t : Transducer) (state : Nat) : String := (t.states.state state).text

/-- The transition table, one row for each state and symbol. -/
def tableGrid (t : Transducer) : Grid where
  headings := ["Start", "Insym", "Outsym", "End"]
  rows := t.table.transitions.map fun (state, symbol, transition) =>
    [t.stateText state, (t.alphabet.symbols[symbol]?.getD .wildcard).text, joinOrLambda transition.output,
      t.stateText transition.target]

/-- The steps of a run; those that wrote a replaced symbol are marked. -/
def traceGrid (t : Transducer) (trace : Trace) : Grid where
  headings := ["Start", "Read", "Write", "End", "Rewrite"]
  rows := trace.steps.map fun s =>
    [t.stateText s.source, s.input.text, joinOrLambda s.output, t.stateText s.target, if s.replaces then "*" else ""]

/-- The states that owe something, each with what it owes. -/
def owing (t : Transducer) : List (Nat × List Symbol) :=
  (t.finals.zipIdx.filter (!·.1.isEmpty)).map fun (output, state) => (state, output)

/-- All parameters of a transducer. -/
def report (t : Transducer) : String :=
  "\n".intercalate
    (["Rules:"] ++ t.rules.rules.map ("    " ++ ·) ++
      ["Context type: " ++ t.rules.shape.text,
        "Σ: " ++ braced (t.sigma.map (·.text)),
        "Γ: " ++ braced (t.gamma.map (·.text)),
        "Q: " ++ braced (t.states.states.map (·.text)),
        "q0: " ++ t.stateText 0,
        "v0: " ++ joinOrLambda t.initialOutput,
        "Finals:"] ++
      t.owing.map (fun (state, output) => "    " ++ t.stateText state ++ " -> " ++ join output) ++
      ["Delta:", t.tableGrid.draw])

end Transducer

end ReplaceRules
