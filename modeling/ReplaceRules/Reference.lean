import ReplaceRules.Rule.Set

/-!
# What rules mean

The meaning of a set of rules, without any machine. Each symbol of a framed input is looked at on its own: it is replaced if
some pair has it as input and some context stands around it, in the frame as it was before anything was replaced.

For rules that insert there is a second account that does not speak of gaps as symbols: `insertInto` puts the inserted symbol
between the symbols of the input wherever a context, as it is written, stands around the place.
-/

namespace ReplaceRules

namespace RuleSet

/-- Whether some context stands around a place. `before` holds the symbols before the place, the nearest one first. -/
def applies (r : RuleSet) (before after : List Symbol) : Bool :=
  r.environments.any fun c => c.left.reverse.isPrefixOf before && c.right.isPrefixOf after

/-- What becomes of one symbol between the symbols before it and those after it. -/
def replaceOne (r : RuleSet) (before : List Symbol) (s : Symbol) (after : List Symbol) : Symbol :=
  match r.pairs.find? (·.input = s) with
  | some p => if r.applies before after then p.output else s
  | none => s

/-- What becomes of the symbols that follow `before`, each looked at on its own. -/
def replaceEach (r : RuleSet) (before : List Symbol) : List Symbol → List Symbol
  | [] => []
  | s :: after => r.replaceOne before s after :: r.replaceEach (s :: before) after

/-- What rules make of an input: every symbol of its frame replaced where a rule applies, after an initial output, without the
sentinels. -/
def replace (r : RuleSet) (initialOutput input : List Symbol) : List Symbol :=
  (initialOutput ++ r.replaceEach [] (r.frame input)).filter (!·.isSentinel)

/-- Whether some context, as it is written, stands around a gap of an input. `before` holds the symbols before the gap, the
nearest one first. -/
def appliesToGap (r : RuleSet) (before after : List Symbol) : Bool :=
  r.contexts.isEmpty ||
    r.contexts.any fun c =>
      c.left.reverse.isPrefixOf (before ++ [.boundary]) && c.right.isPrefixOf (after ++ [.boundary])

/-- The symbols that follow `before`, with `inserted` in every gap around which a context stands. -/
def insertInto (r : RuleSet) (inserted : Symbol) (before : List Symbol) : List Symbol → List Symbol
  | [] => if r.appliesToGap before [] then [inserted] else []
  | s :: after =>
    (if r.appliesToGap before (s :: after) then [inserted] else []) ++ s :: r.insertInto inserted (s :: before) after

end RuleSet

end ReplaceRules
