import ReplaceRules.Suite.Reader.Rules
import ReplaceRules.Suite.Reader.Tests

/-!
# Reading suites

A test file is a YAML mapping of `rules` and `tests`, in any number and order. Each `tests` entry makes a suite with the rules
that were given last.
-/

namespace ReplaceRules

open Yaml (Item)

namespace Suite.Reader

/-- Takes the entries of a test file. `rules` are those that were given last. -/
def readSuites (rules : Option RuleDefinition) : List Item → Except ReadError (List Suite × List Item)
  | .event (.scalar key) :: rest =>
    if key = "rules" then
      match _h : readRules rest with
      | .error e => .error e
      | .ok (rules, left) => readSuites (some rules) left
    else if key = "tests" then
      match _h : readTests rest with
      | .error e => .error e
      | .ok (tests, left) =>
        match rules with
        | none => .error .noRules
        | some r => mapValue ({ rules := r, tests } :: ·) (readSuites (some r) left)
    else .error (.unknownKey key)
  | items => .ok ([], items)
termination_by items => items.length
decreasing_by
  · have := readRules_length _h; simp only [List.length_cons]; omega
  · have := readTests_length _h; simp only [List.length_cons]; omega

/-- Takes the start of a stream in UTF-8. -/
def readStreamStart : List Item → Except ReadError (List Item)
  | .event (.streamStart (some encoding)) :: rest =>
    if encoding = .utf8 then .ok rest else .error (.unsupportedEncoding encoding)
  | _ => .error .streamStartExpected

end Suite.Reader

open Suite.Reader in
/-- The suites of a test file, from the events of its one document. -/
def Suite.ofItems (items : List Item) : Except ReadError (List Suite) := do
  let items ← readStreamStart items
  let items ← readEvent .documentStart (fun _ => .documentStartExpected) items
  let items ← readEvent .mappingStart .mappingStartExpected items
  let (suites, items) ← readSuites none items
  let items ← readEvent .mappingEnd (fun _ => .mappingEndExpected) items
  let items ← readEvent .documentEnd (fun _ => .documentEndExpected) items
  let _ ← readEvent .streamEnd (fun _ => .streamEndExpected) items
  return suites

end ReplaceRules
