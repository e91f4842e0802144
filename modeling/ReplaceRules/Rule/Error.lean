import ReplaceRules.Symbol.Tokens

/-!
# What can be wrong with a rule

The shapes of a context and the causes for which a rule, a context or a set of rules is refused, with the wording of each.
-/

namespace ReplaceRules

/-- Where the replaced symbol stands in its context: a free rule applies everywhere, a left context stands before the symbol,
a right context after it, and a dual context on both sides. -/
inductive Shape where
  | free
  | left
  | right
  | dual
  deriving DecidableEq, Repr

namespace Shape

/-- The shapes, in the order in which they are listed. -/
def all : List Shape := [.free, .left, .right, .dual]

/-- The name of a shape. -/
def text : Shape → String
  | .free => "free"
  | .left => "left"
  | .right => "right"
  | .dual => "dual"

/-- The name of a shape as a member of a set of shapes. -/
def label : Shape → String
  | .free => "Free"
  | .left => "Left"
  | .right => "Right"
  | .dual => "Dual"

end Shape

/-- Why a rule, a context or a set of rules is refused. -/
inductive RuleError where
  /-- A bracket has no partner. -/
  | tag (error : TagError)
  /-- A context has no marker, or several. -/
  | markerCount (context : String) (found : Nat)
  /-- A pair has no side, or is not of the kind that was asked for. -/
  | invalidPair (input output : String)
  /-- A side of a pair has more than one symbol. -/
  | singleSymbolExpected (found : String)
  /-- A reserved symbol stands where it may not. -/
  | reservedSymbol (symbol place : String)
  /-- A boundary stands inside a context. -/
  | misplacedBoundary (context : String)
  /-- The contexts have several shapes. -/
  | mixedShapes (found : List Shape)
  /-- Some pairs insert and some do not. -/
  | mixedInsertion
  /-- Two pairs give one input two outputs. -/
  | ambiguous (input first second : String)
  /-- A list of inputs and a list of outputs do not have the same length. -/
  | lengthMismatch (inputs outputs : Nat)
  /-- A rule does not have exactly one arrow. -/
  | malformedRule (rule : String)
  /-- A kind has no such name. -/
  | unknownKind (kind : String)
  /-- There is no pair. -/
  | noRules
  deriving DecidableEq, Repr

/-- The wording of a refusal. -/
def RuleError.message : RuleError → String
  | .tag e => e.message
  | .markerCount context found => "Context " ++ quoted context ++ " must contain exactly one '_', found " ++ toString found
  | .invalidPair input output => "Invalid pair (" ++ quoted input ++ ", " ++ quoted output ++ ")"
  | .singleSymbolExpected found => "Expected a single symbol, got " ++ quoted found
  | .reservedSymbol symbol place => "Reserved symbol " ++ quoted symbol ++ " not allowed in " ++ quoted place
  | .misplacedBoundary context => "The boundary '$' can only start or end context " ++ quoted context
  | .mixedShapes found =>
    "Context type must be homogeneous, got EnumSet(" ++ " | ".intercalate (found.map Shape.label) ++ ")"
  | .mixedInsertion => "Insertion rules cannot be combined with other rules"
  | .ambiguous input first second => quoted input ++ " is rewritten to both " ++ quoted first ++ " and " ++ quoted second
  | .lengthMismatch inputs outputs =>
    "Got " ++ toString inputs ++ " input symbols but " ++ toString outputs ++ " output symbols"
  | .malformedRule rule => "Expected a rule of the form 'IN -> OUT', got " ++ quoted rule
  | .unknownKind kind => "Unknown rule kind " ++ quoted kind
  | .noRules => "At least one rule is needed"

end ReplaceRules
