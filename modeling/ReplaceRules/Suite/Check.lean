import ReplaceRules.Suite.Reader

/-!
# Checking suites

A test is checked by symbols: what the transducer makes of the input has to be the symbols of the expected text, however those
are spaced. Checking ends at the first thing that is wrong with the rules, an input or an expected text; otherwise there is
one verdict for each test, in order.
-/

namespace ReplaceRules

/-- What a test showed. -/
inductive Verdict where
  | success
  | failure (input expected actual : String)
  | expectedFailure (input expected actual : String)
  | unexpectedSuccess (input : String)
  deriving DecidableEq, Repr

/-- Why a test file cannot be checked. -/
inductive CheckError where
  | unreadable
  | invalid (error : ReadError)
  /-- The rules of a suite are refused. -/
  | compiling (rules : List String) (error : TransducerError)
  /-- The input or the expected text of a test is refused. -/
  | replacing (input : String) (error : TransducerError)
  deriving DecidableEq, Repr

/-- The wording of an error. -/
def CheckError.message : CheckError → String
  | .unreadable => "Cannot read test file"
  | .invalid _ => "Invalid test file"
  | .compiling rules _ => "Error when compiling rules " ++ quotedList rules
  | .replacing input _ => "Error when rewriting " ++ quoted input

namespace Test

/-- The verdict on a test, given what its input became and whether that was expected. -/
def verdict (t : Test) (actual : String) (isMatch : Bool) : Verdict :=
  if isMatch then
    if t.xfail.isExpected then .unexpectedSuccess t.input else .success
  else if t.xfail.isExpected then .expectedFailure t.input t.expected actual
  else .failure t.input t.expected actual

/-- Checks a test. -/
def check (m : Transducer) (t : Test) : Except TransducerError Verdict :=
  match m.replace t.input with
  | .error e => .error e
  | .ok actual =>
    match tokenize t.expected with
    | .error e => .error (.tag e)
    | .ok symbols => .ok (t.verdict actual (actual = join symbols))

end Test

namespace Suite

/-- Checks the tests of a suite. -/
def check (s : Suite) : Except CheckError (List Verdict) :=
  match s.rules.compile with
  | .error e => .error (.compiling s.rules.pairs e)
  | .ok m => readAll (fun t => (t.check m).mapError (.replacing t.input)) s.tests

/-- Checks suites one after another. -/
def checkAll (suites : List Suite) : Except CheckError (List Verdict) :=
  match readAll check suites with
  | .error e => .error e
  | .ok verdicts => .ok verdicts.flatten

end Suite

/-- A test file as it is found. -/
inductive TestFile where
  /-- The file cannot be opened. -/
  | missing
  /-- The file can be opened, and a reader of YAML gets some items from it. -/
  | opened (items : List Yaml.Item)

namespace TestFile

/-- The suites in a file. -/
def suites : TestFile → Except CheckError (List Suite)
  | .missing => .error .unreadable
  | .opened items => (Suite.ofItems items).mapError .invalid

/-- Checks the suites in a file. -/
def check (f : TestFile) : Except CheckError (List Verdict) :=
  match f.suites with
  | .error e => .error e
  | .ok suites => Suite.checkAll suites

/-- Checks files one after another. -/
def checkAll (files : List TestFile) : Except CheckError (List Verdict) :=
  match readAll check files with
  | .error e => .error e
  | .ok verdicts => .ok verdicts.flatten

end TestFile

end ReplaceRules
