import ReplaceRules.CommandLine.Arguments
import ReplaceRules.Report
import ReplaceRules.Suite.Check
import ReplaceRules.Yaml.Event.OfTokens

/-!
# The command line

What a command prints and the status with which it ends, given the test files it names. An error leaves nothing but its
message. Failed tests are no error: they are listed and counted, and the status tells of them. Commands take whatever items a
reader of YAML gets from a file; the reader itself comes in only with the files of a disk (`TestFile.content`).
-/

namespace ReplaceRules

namespace TestFile

/-- A file with some bytes. -/
def content (bytes : ByteArray) : TestFile := .opened (Yaml.Event.ofBytes bytes)

/-- A file that can be opened, but from which nothing can be read. -/
def blocked : TestFile := .opened [.fault]

end TestFile

/-- How a command ends. -/
structure Outcome where
  status : Nat
  output : String := ""
  errors : String := ""
  deriving DecidableEq, Repr

namespace Outcome

/-- Ends well with some lines. -/
def lines (texts : List String) (status : Nat) : Outcome := { status, output := String.join (texts.map (· ++ "\n")) }

/-- Ends with an error. -/
def failed (message : String) : Outcome := { status := 1, errors := "Error: " ++ message ++ "\n" }

end Outcome

/-- The line about a verdict, if it deserves one. -/
def Verdict.line? : Verdict → Option String
  | .failure input expected actual =>
    some ("FAIL " ++ quoted input ++ ": expected " ++ quoted expected ++ ", got " ++ quoted actual)
  | .unexpectedSuccess input => some ("XPASS " ++ quoted input)
  | .success | .expectedFailure .. => none

/-- How many verdicts there are of each sort. -/
structure Tally where
  successes : Nat := 0
  failures : Nat := 0
  expectedFailures : Nat := 0
  unexpectedSuccesses : Nat := 0
  deriving DecidableEq, Repr

namespace Tally

/-- Counts one more verdict. -/
def add (t : Tally) : Verdict → Tally
  | .success => { t with successes := t.successes + 1 }
  | .failure .. => { t with failures := t.failures + 1 }
  | .expectedFailure .. => { t with expectedFailures := t.expectedFailures + 1 }
  | .unexpectedSuccess _ => { t with unexpectedSuccesses := t.unexpectedSuccesses + 1 }

/-- Counts verdicts. -/
def ofVerdicts (verdicts : List Verdict) : Tally := verdicts.foldl add {}

/-- The lines of the counts. -/
def lines (t : Tally) : List String :=
  [s!"Pass: {t.successes}", s!"Fail: {t.failures}", s!"Expected failures: {t.expectedFailures}",
    s!"Unexpected successes: {t.unexpectedSuccesses}"]

end Tally

/-- The outcome of checking: what went wrong, the counts, and status 1 if a test failed. -/
def Outcome.ofVerdicts (verdicts : List Verdict) : Outcome :=
  let tally := Tally.ofVerdicts verdicts
  .lines (verdicts.filterMap (·.line?) ++ tally.lines) (if tally.failures = 0 then 0 else 1)

namespace Command

/-- The files that a command reads. -/
def files : Command → List String
  | .check files => files
  | .replace .. | .debug _ => []

/-- Carries a command out. -/
def run (file : String → TestFile) : Command → Outcome
  | .replace rules trace input =>
    match rules.compile with
    | .error e => .failed e.message
    | .ok m =>
      match m.runText input with
      | .error e => .failed e.message
      | .ok t => .lines ((if trace then [(m.traceGrid t).draw] else []) ++ [join t.output]) 0
  | .debug rules =>
    match rules.compile with
    | .error e => .failed e.message
    | .ok m => .lines [m.report] 0
  | .check files =>
    match TestFile.checkAll (files.map file) with
    | .error e => .failed e.message
    | .ok verdicts => .ofVerdicts verdicts

/-- How to use the command line. -/
def help : List String :=
  ["Replaces symbols by contextual rules.", "",
    "  rewrite -r RULE [-r RULE] [-c CONTEXT] [-k KIND] [--prefix SYMBOLS] [--trace] INPUT",
    "      replace symbols of INPUT by rules of the form 'IN -> OUT' in contexts of the form 'LEFT _ RIGHT'",
    "  debug -r RULE [-r RULE] [-c CONTEXT] [-k KIND] [--prefix SYMBOLS]",
    "      show the parameters of the transducer for the rules",
    "  check-yaml FILE [FILE]",
    "      run the tests in YAML files; the status is 1 if any of them fails"]

end Command

/-- The outcome where no command is given. -/
def Stop.outcome : Stop → Outcome
  | .help => .lines Command.help 0
  | .refused => { status := 2, errors := (Outcome.lines Command.help 2).output }

end ReplaceRules
