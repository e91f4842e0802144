import ReplaceRules.Rule.Error

/-!
# Contexts

A context `LEFT _ RIGHT` says what has to stand immediately before and after a symbol for it to be replaced. In a context as it
is written, the wildcard and the empty symbol do not occur, the marker occurs exactly once, and the boundary only as the very
first symbol on the left or the very last on the right.
-/

namespace ReplaceRules

/-- The symbols immediately before and immediately after a replaced symbol. -/
structure Context where
  left : List Symbol := []
  right : List Symbol := []
  deriving DecidableEq, Repr, Inhabited

namespace Context

/-- The context of a rule that applies everywhere. -/
def free : Context := {}

/-- The shape of a context: which of its sides has symbols. -/
def shape (c : Context) : Shape :=
  match c.left, c.right with
  | [], [] => .free
  | _ :: _, [] => .left
  | [], _ :: _ => .right
  | _ :: _, _ :: _ => .dual

/-- A context as it is matched against an input with gaps: with an empty symbol between every two symbols of a side. -/
def interleaved (c : Context) : Context := ⟨interleave c.left, interleave c.right⟩

/-- The symbols of a context from left to right, each with whether it stands at the outer end of its side. -/
def places (c : Context) : List (Bool × Symbol) :=
  (match c.left with
    | [] => []
    | first :: inner => (true, first) :: inner.map (false, ·)) ++
  c.right.dropLast.map (false, ·) ++ c.right.getLast?.toList.map (true, ·)

/-- The first symbol of a context that may not stand where it stands, as the reason to refuse the context. -/
def fault? (c : Context) (source : String) : Option RuleError :=
  c.places.findSome? fun (outer, s) =>
    if s = .boundary then (if outer then none else some (.misplacedBoundary source))
    else if s.isReserved then some (.reservedSymbol s.text source)
    else none

/-- Reads a context of the form `LEFT _ RIGHT`. -/
def parse (source : String) : Except RuleError Context :=
  match tokenize source with
  | .error e => .error (.tag e)
  | .ok symbols =>
    if symbols.count .marker = 1 then
      let context : Context :=
        ⟨symbols.takeWhile (· ≠ .marker), (symbols.dropWhile (· ≠ .marker)).tail⟩
      match context.fault? source with
      | some e => .error e
      | none => .ok context
    else .error (.markerCount source (symbols.count .marker))

/-- A context as it is written. -/
def text (c : Context) : String := join (c.left ++ .marker :: c.right)

end Context

end ReplaceRules
