import ReplaceRules.CommandLine

/-!
# Running the command line
-/

namespace ReplaceRules

/-- Reads what is left of a file that has been opened. -/
def readOpened (handle : IO.FS.Handle) : IO TestFile := do
  try
    return .content (← handle.readBinToEnd)
  catch _ =>
    return .blocked

/-- Reads a test file. -/
def readTestFile (path : String) : IO TestFile := do
  try
    readOpened (← IO.FS.Handle.mk path .read)
  catch _ =>
    return .missing

/-- The outcome of some arguments. -/
def outcomeOf (args : List String) : IO Outcome := do
  match Command.ofArguments args with
  | .error stop => return stop.outcome
  | .ok command =>
    let found ← command.files.mapM fun path => return (path, ← readTestFile path)
    return command.run fun path => (found.lookup path).getD .missing

end ReplaceRules

open ReplaceRules in
/-- Carries out what the arguments say. -/
def main (args : List String) : IO UInt32 := do
  let outcome ← outcomeOf args
  (← IO.getStdout).putStr outcome.output
  (← IO.getStderr).putStr outcome.errors
  return outcome.status.toUInt32
