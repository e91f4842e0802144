import ReplaceRules.Rule.Context
import ReplaceRules.Rule.Pair

/-!
# Sets of rules

A set of rules is a list of pairs and a list of contexts, each pair applying in each context. A list of pairs and contexts is
accepted if the contexts have one shape, the pairs all insert or none does, no input has two outputs, and there is a pair at
all. An accepted set is in normal form: repeated pairs and contexts are dropped, and a set of free rules has no context.

Rules are matched against an input in its frame: between two boundaries and, where the rules insert, with a gap between every
two symbols.
-/

namespace ReplaceRules

/-- Pairs and the contexts in which each of them applies; no context means everywhere. -/
structure RuleSet where
  pairs : List Pair
  contexts : List Context
  deriving DecidableEq, Repr, Inhabited

/-- Applies a reader to a list; the first error is the error of the list. -/
def readAll {α β ε : Type} (read : α → Except ε β) : List α → Except ε (List β)
  | [] => .ok []
  | a :: rest =>
    match read a with
    | .error e => .error e
    | .ok b =>
      match readAll read rest with
      | .error e => .error e
      | .ok bs => .ok (b :: bs)

/-- The shapes that occur among contexts, in the order in which shapes are listed. -/
def shapesOf (contexts : List Context) : List Shape := Shape.all.filter fun s => contexts.any (·.shape = s)

/-- Adds pairs to a list of pairs with different inputs: a pair that is there already is dropped, and a pair that gives a known
input another output is an error. -/
def addPairs (kept : List Pair) : List Pair → Except RuleError (List Pair)
  | [] => .ok kept
  | p :: rest =>
    match kept.find? (·.input = p.input) with
    | none => addPairs (kept ++ [p]) rest
    | some q =>
      if q.output = p.output then addPairs kept rest
      else .error (.ambiguous p.input.text q.output.text p.output.text)

/-- Whether some pairs insert and some do not. -/
def mixesInsertion (pairs : List Pair) : Bool :=
  pairs.any (·.kind = .insertion) && pairs.any (·.kind ≠ .insertion)

namespace RuleSet

/-- The shape that all contexts of a set have. -/
def shape (r : RuleSet) : Shape :=
  match r.contexts with
  | [] => .free
  | c :: _ => c.shape

/-- Whether the pairs of a set insert. -/
def inserts (r : RuleSet) : Bool := r.pairs.any (·.kind = .insertion)

/-- The set of some pairs in contexts that have been read. -/
def ofContexts (pairs : List Pair) (contexts : List Context) : Except RuleError RuleSet :=
  if (shapesOf contexts).length > 1 then .error (.mixedShapes (shapesOf contexts))
  else if mixesInsertion pairs then .error .mixedInsertion
  else
    match addPairs [] pairs with
    | .error e => .error e
    | .ok [] => .error .noRules
    | .ok kept => .ok ⟨kept, if shapesOf contexts = [.free] then [] else contexts.eraseDups⟩

/-- The set of some pairs in contexts as they are written. -/
def ofPairs (pairs : List Pair) (contexts : List String) : Except RuleError RuleSet :=
  match readAll Context.parse contexts with
  | .error e => .error e
  | .ok contexts => ofContexts pairs contexts

/-- The pairs given as parallel lists of inputs and outputs. -/
def pairsOfLists (inputs outputs : List String) : Except RuleError (List Pair) :=
  if inputs.length ≠ outputs.length then .error (.lengthMismatch inputs.length outputs.length)
  else readAll (fun (i, o) => Pair.ofSides i o) (inputs.zip outputs)

/-- The set of pairs given as parallel lists of inputs and outputs. -/
def ofLists (inputs outputs contexts : List String) : Except RuleError RuleSet :=
  match pairsOfLists inputs outputs with
  | .error e => .error e
  | .ok pairs => ofPairs pairs contexts

/-- The set of rules of the form `IN -> OUT`. -/
def ofRules (rules contexts : List String) : Except RuleError RuleSet :=
  match readAll Pair.parse rules with
  | .error e => .error e
  | .ok pairs => ofPairs pairs contexts

/-- Accepts a set only if all its pairs are of one kind. -/
def restrict (r : RuleSet) (kind : Kind) : Except RuleError RuleSet :=
  match r.pairs.find? (·.kind ≠ kind) with
  | some p => .error (.invalidPair p.input.text p.output.text)
  | none => .ok r

/-- The contexts as they are matched against a framed input: an input to insert into has gaps, so its contexts have too. -/
def matchingContexts (r : RuleSet) : List Context :=
  if r.inserts then r.contexts.map Context.interleaved else r.contexts

/-- The contexts in which each pair is tried: the matching contexts, or the free one if the set has none. -/
def environments (r : RuleSet) : List Context :=
  if r.contexts.isEmpty then [.free] else r.matchingContexts

/-- An input between two boundaries, with a gap between every two symbols if the rules insert. -/
def frame (r : RuleSet) (input : List Symbol) : List Symbol :=
  let framed := .boundary :: input ++ [.boundary]
  if r.inserts then interleave framed else framed

/-- The rules of a set as they are written, `IN -> OUT / CONTEXT`. -/
def rules (r : RuleSet) : List String :=
  (if r.contexts.isEmpty then [.free] else r.contexts).flatMap fun c =>
    r.pairs.map fun p => p.text ++ " / " ++ c.text

end RuleSet

end ReplaceRules
