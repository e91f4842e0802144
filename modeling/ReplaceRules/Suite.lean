import ReplaceRules.Transducer.Run

/-!
# Suites of tests

A suite is a definition of rules with tests for them. A test gives an input and the output that is expected of it; it may be
expected to fail.
-/

namespace ReplaceRules

/-- Rules as they are given by a user, before anything is checked. -/
structure RuleDefinition where
  /-- Rules of the form `IN -> OUT`. -/
  pairs : List String
  contexts : List String := []
  /-- The kind that all pairs must be of. -/
  kind : Option Kind := none
  /-- Symbols to write before every output. -/
  initialOutput : Option String := none
  deriving DecidableEq, Repr

/-- The set of rules of a definition. -/
def RuleDefinition.ruleSet (d : RuleDefinition) : Except RuleError RuleSet :=
  match RuleSet.ofRules d.pairs d.contexts with
  | .error e => .error e
  | .ok r =>
    match d.kind with
    | some kind => r.restrict kind
    | none => .ok r

/-- The transducer of a definition. -/
def RuleDefinition.compile (d : RuleDefinition) : Except TransducerError Transducer :=
  match d.ruleSet with
  | .error e => .error (.rule e)
  | .ok r =>
    match Transducer.compile r with
    | .error e => .error e
    | .ok t =>
      match d.initialOutput with
      | some text => t.withInitialOutput text
      | none => .ok t

/-- Whether a test is expected to fail: yes or no, or a reason why it is. -/
inductive Xfail where
  | flag (expected : Bool)
  | reason (text : String)
  deriving DecidableEq, Repr

/-- Whether a failure is expected. -/
def Xfail.isExpected : Xfail → Bool
  | .flag expected => expected
  | .reason _ => true

/-- The words for no. -/
def Xfail.noWords : List String := ["off", "false", "no"]

/-- The words for yes. -/
def Xfail.yesWords : List String := ["on", "true", "yes"]

/-- What a text says: yes or no, or a reason if it is none of the words for these. -/
def Xfail.ofText (text : String) : Xfail :=
  if noWords.contains text then .flag false
  else if yesWords.contains text then .flag true
  else .reason text

/-- A text that says so. -/
def Xfail.text : Xfail → String
  | .flag false => "no"
  | .flag true => "yes"
  | .reason text => text

/-- A test of a definition. -/
structure Test where
  description : Option String := none
  input : String
  expected : String
  xfail : Xfail := .flag false
  deriving DecidableEq, Repr

/-- A definition of rules and its tests. -/
structure Suite where
  rules : RuleDefinition
  tests : List Test
  deriving DecidableEq, Repr

end ReplaceRules
