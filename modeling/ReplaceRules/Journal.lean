import ReplaceRules.Suite.Check

/-!
# Journals

What there is to tell about reading rules, compiling them, running them and checking tests. A journal is a list of notices,
derived from the same values as the answers; nothing else depends on it. A notice has a level, and a reader asks for all
notices up to some level.
-/

namespace ReplaceRules

/-- How much a reader has to care: the later, the less. -/
inductive Level where
  | error
  | warn
  | info
  | debug
  | trace
  deriving DecidableEq, Repr

namespace Level

/-- All levels, the most pressing one first. -/
def all : List Level := [error, warn, info, debug, trace]

/-- The name of a level. -/
def text : Level → String
  | .error => "ERROR"
  | .warn => "WARN"
  | .info => "INFO"
  | .debug => "DEBUG"
  | .trace => "TRACE"

/-- Whether a level is as pressing as another one. -/
def isWithin (a b : Level) : Bool := all.idxOf a ≤ all.idxOf b

end Level

/-- Something to tell. -/
inductive Notice where
  /-- A context that was given before. -/
  | repeatedContext (source : String)
  /-- A pair that was given before. -/
  | repeatedPair (pair : Pair)
  | compiling (patterns symbols : Nat)
  | carryState (state : State)
  | stateCounts (onContexts carry : Nat)
  | edgeCounts (along fallbacks : Nat)
  | step (source : State) (symbol : Symbol) (target : State)
  | running (tests : Nat) (rules : List String)
  | checking (suites : Nat) (file : String)
  deriving DecidableEq, Repr

namespace Notice

/-- The level of a notice. -/
def level : Notice → Level
  | .repeatedContext _ | .repeatedPair _ => .warn
  | .compiling .. | .carryState _ | .stateCounts .. | .edgeCounts .. => .debug
  | .step .. => .trace
  | .running .. | .checking .. => .info

/-- The wording of a notice. -/
def message : Notice → String
  | .repeatedContext source => "Ignoring duplicate context " ++ quoted source
  | .repeatedPair pair => "Ignoring duplicate rule " ++ pair.text
  | .compiling patterns symbols => s!"Compiling {patterns} patterns over {symbols} symbols"
  | .carryState state => "Added carry state " ++ state.text
  | .stateCounts onContexts carry => s!"{onContexts} context states, {carry} carry states"
  | .edgeCounts along fallbacks => s!"{along} happy path edges, {fallbacks} fallback edges"
  | .step source symbol target => source.text ++ " --" ++ symbol.text ++ "--> " ++ target.text
  | .running tests rules => s!"Running {tests} tests against " ++ ", ".intercalate rules
  | .checking suites file => s!"Checking {suites} suites in " ++ quoted file

/-- A notice under its level. -/
def line (n : Notice) : String := n.level.text ++ " " ++ n.message

end Notice

/-- The lines of the notices up to a level. -/
def linesWithin (level : Level) (notices : List Notice) : List String :=
  (notices.filter (·.level.isWithin level)).map (·.line)

/-- Notices of the contexts that were given before, up to the first that cannot be read. -/
def repeatedContexts (seen : List Context) : List String → List Notice
  | [] => []
  | source :: rest =>
    match Context.parse source with
    | .error _ => []
    | .ok c =>
      if seen.contains c then .repeatedContext source :: repeatedContexts seen rest
      else repeatedContexts (seen ++ [c]) rest

/-- Notices of the pairs that were given before, up to the first that contradicts one. -/
def repeatedPairs (seen : List Pair) : List Pair → List Notice
  | [] => []
  | p :: rest =>
    match seen.find? (·.input = p.input) with
    | none => repeatedPairs (seen ++ [p]) rest
    | some q => if q.output = p.output then .repeatedPair p :: repeatedPairs seen rest else []

/-- The notices of reading a set of rules. Pairs are looked at only when nothing is wrong with the contexts. -/
def RuleSet.notices (pairs : List Pair) (contexts : List String) : List Notice :=
  repeatedContexts [] contexts ++
    match readAll Context.parse contexts with
    | .error _ => []
    | .ok cs => if (shapesOf cs).length > 1 || mixesInsertion pairs then [] else repeatedPairs [] pairs

/-- The notices of compiling a set of rules. -/
def Construction.notices (c : Construction) : List Notice :=
  let carry := c.states.states.drop c.contextStates.size
  .compiling c.patterns.toList.length c.alphabet.size :: carry.map .carryState ++
    [.stateCounts c.contextStates.size carry.length, .edgeCounts c.along.length c.fallbacks.length]

/-- The notices of a run. -/
def Transducer.runNotices (m : Transducer) (trace : Trace) : List Notice :=
  trace.steps.map fun s => .step (m.states.state s.source) s.input (m.states.state s.target)

/-- The notices of replacing in a text. -/
def Transducer.notices (m : Transducer) (text : String) : List Notice :=
  match m.runText text with
  | .error _ => []
  | .ok trace => m.runNotices trace

/-- The notices of compiling a definition. -/
def RuleDefinition.notices (d : RuleDefinition) : List Notice :=
  match readAll Pair.parse d.pairs with
  | .error _ => []
  | .ok pairs =>
    RuleSet.notices pairs d.contexts ++
      match d.ruleSet with
      | .error _ => []
      | .ok r => (Construction.ofRules r).notices

namespace Suite

/-- The notices of checking tests, up to the first that cannot be checked. -/
def testNotices (m : Transducer) : List Test → List Notice
  | [] => []
  | t :: rest =>
    m.notices t.input ++
      match t.check m with
      | .error _ => []
      | .ok _ => testNotices m rest

/-- The notices of checking a suite. -/
def notices (s : Suite) : List Notice :=
  s.rules.notices ++
    match s.rules.compile with
    | .error _ => []
    | .ok m => .running s.tests.length m.rules.rules :: testNotices m s.tests

/-- The notices of checking suites, up to the first that cannot be checked. -/
def noticesOfAll : List Suite → List Notice
  | [] => []
  | s :: rest =>
    s.notices ++
      match s.check with
      | .error _ => []
      | .ok _ => noticesOfAll rest

end Suite

/-- The notices of checking a file. -/
def TestFile.notices (name : String) (f : TestFile) : List Notice :=
  match f.suites with
  | .error _ => []
  | .ok suites => .checking suites.length name :: Suite.noticesOfAll suites

end ReplaceRules
