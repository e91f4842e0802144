import ReplaceRules.Suite.Grammar

/-!
# Writing suites

The events of a test file that holds some suites. A reader of them gets the suites back, if every suite has pairs and no reason
for an expected failure is a word for yes or no.
-/

namespace ReplaceRules

open Yaml (Event Item)

namespace Suite.Grammar

/-- The entries of a definition of rules. -/
def ruleEntries (d : RuleDefinition) : List Item :=
  scalar "pairs" :: scalars d.pairs ++ scalar "contexts" :: scalars d.contexts ++
    (d.kind.toList.flatMap fun kind => [scalar "kind", scalar kind.text]) ++
    (d.initialOutput.toList.flatMap fun text => [scalar "prefix", scalar text])

/-- The items of a test. -/
def testItems (t : Test) : List Item :=
  if t.xfail = .flag false then sequence (texts t)
  else sequence (texts t ++ mapping [scalar "xfail", scalar t.xfail.text])

/-- The entries of a suite. -/
def suiteEntries (s : Suite) : List Item :=
  scalar "rules" :: mapping (ruleEntries s.rules) ++ scalar "tests" :: sequence (s.tests.flatMap testItems)

end Suite.Grammar

open Suite.Grammar

/-- Whether a reader of a suite gets it back. -/
def Suite.IsWritable (s : Suite) : Prop := s.rules.pairs ≠ [] ∧ ∀ t ∈ s.tests, Xfail.ofText t.xfail.text = t.xfail

instance : DecidablePred Suite.IsWritable := fun _ => inferInstanceAs (Decidable (_ ∧ _))

/-- The items of a test file with some suites. -/
def Suite.toItems (suites : List Suite) : List Item := file (suites.flatMap suiteEntries)

end ReplaceRules
