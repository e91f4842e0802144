import ReplaceRules.Suite
import ReplaceRules.Yaml.Event

/-!
# The grammar of test files

Which events make a test file, and which suites it holds, said without a reader: each relation lists the ways in which a part of
a file may be put together.
-/

namespace ReplaceRules

open Yaml (Event Item)

namespace Suite.Grammar

/-- A scalar. -/
def scalar (text : String) : Item := .event (.scalar text)

/-- A sequence of scalars. -/
def scalars (texts : List String) : List Item :=
  .event .sequenceStart :: texts.map scalar ++ [.event .sequenceEnd]

/-- The items of a mapping, given those of its entries. -/
def mapping (entries : List Item) : List Item := .event .mappingStart :: entries ++ [.event .mappingEnd]

/-- The items of a sequence, given those of its members. -/
def sequence (members : List Item) : List Item := .event .sequenceStart :: members ++ [.event .sequenceEnd]

/-- Entries that turn one definition of rules into another, each replacing what was given for its key before. -/
inductive RuleEntries : RuleDefinition → List Item → RuleDefinition → Prop where
  | none (d : RuleDefinition) : RuleEntries d [] d
  | pairs {d d' : RuleDefinition} {later : List Item} (pairs : List String) :
      RuleEntries { d with pairs } later d' → RuleEntries d (scalar "pairs" :: scalars pairs ++ later) d'
  | contexts {d d' : RuleDefinition} {later : List Item} (contexts : List String) :
      RuleEntries { d with contexts } later d' → RuleEntries d (scalar "contexts" :: scalars contexts ++ later) d'
  | kind {d d' : RuleDefinition} {later : List Item} (kind : Kind) :
      RuleEntries { d with kind := some kind } later d' →
        RuleEntries d (scalar "kind" :: scalar kind.text :: later) d'
  | initialOutput {d d' : RuleDefinition} {later : List Item} (text : String) :
      RuleEntries { d with initialOutput := some text } later d' →
        RuleEntries d (scalar "prefix" :: scalar text :: later) d'

/-- The entries in the mapping of a test; the last one counts. -/
inductive XfailEntries : Xfail → List Item → Xfail → Prop where
  | none (x : Xfail) : XfailEntries x [] x
  | xfail {x x' : Xfail} {later : List Item} (text : String) :
      XfailEntries (.ofText text) later x' → XfailEntries x (scalar "xfail" :: scalar text :: later) x'

/-- The scalars of a test. -/
def texts (t : Test) : List Item := (t.description.toList ++ [t.input, t.expected]).map scalar

/-- The items of a test: its scalars, and a mapping that may follow them. -/
inductive IsTest : List Item → Test → Prop where
  | plain (t : Test) : t.xfail = .flag false → IsTest (sequence (texts t)) t
  | withMapping {t : Test} {entries : List Item} :
      XfailEntries (.flag false) entries t.xfail → IsTest (sequence (texts t ++ mapping entries)) t

/-- The items of some tests. -/
inductive AreTests : List Item → List Test → Prop where
  | none : AreTests [] []
  | test {items later : List Item} {t : Test} {tests : List Test} :
      IsTest items t → AreTests later tests → AreTests (items ++ later) (t :: tests)

/-- The entries of a test file and its suites. The first argument is the definition given last before them. -/
inductive Entries : Option RuleDefinition → List Item → List Suite → Prop where
  | none (rules : Option RuleDefinition) : Entries rules [] []
  | rules {before : Option RuleDefinition} {d : RuleDefinition} {entries later : List Item} {suites : List Suite} :
      RuleEntries { pairs := [] } entries d → d.pairs ≠ [] → Entries (some d) later suites →
        Entries before (scalar "rules" :: mapping entries ++ later) suites
  | tests {d : RuleDefinition} {members later : List Item} {tests : List Test} {suites : List Suite} :
      AreTests members tests → Entries (some d) later suites →
        Entries (some d) (scalar "tests" :: sequence members ++ later) ({ rules := d, tests } :: suites)

/-- The items of a file with some entries. -/
def file (entries : List Item) : List Item :=
  .event (.streamStart (some .utf8)) :: .event .documentStart :: mapping entries ++ [.event .documentEnd, .event .streamEnd]

end Suite.Grammar

open Suite.Grammar in
/-- The items begin with a test file that holds some suites. -/
def Suite.IsFile (items : List Item) (suites : List Suite) : Prop :=
  ∃ entries later, items = file entries ++ later ∧ Entries none entries suites

end ReplaceRules
