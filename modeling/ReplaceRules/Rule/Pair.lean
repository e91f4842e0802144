import ReplaceRules.Rule.Error

/-!
# Pairs

A pair says what becomes of a symbol: it is turned into another one, it is deleted, or a symbol is inserted where there was
none. A pair is written `IN -> OUT`; a blank side, or the empty symbol, is the missing side of an insertion or a deletion.
-/

namespace ReplaceRules

/-- What becomes of a symbol. -/
inductive Pair where
  | assimilation (input output : Symbol)
  | deletion (input : Symbol)
  | insertion (output : Symbol)
  deriving DecidableEq, Repr, Inhabited

/-- The kinds of pairs. -/
inductive Kind where
  | assimilation
  | deletion
  | insertion
  deriving DecidableEq, Repr

namespace Kind

/-- The name of a kind. -/
def text : Kind → String
  | .assimilation => "assimilation"
  | .deletion => "deletion"
  | .insertion => "insertion"

/-- The kind with a name. -/
def ofText? (name : String) : Option Kind := [assimilation, deletion, insertion].find? (·.text = name)

/-- The kind with a name, or the error that there is none. -/
def parse (name : String) : Except RuleError Kind :=
  match ofText? name with
  | some kind => .ok kind
  | none => .error (.unknownKind name)

end Kind

/-- Reads one side of a pair; `none` is the missing side. -/
def parseSide (source : String) : Except RuleError (Option Symbol) :=
  match tokenize source with
  | .error e => .error (.tag e)
  | .ok [] => .ok none
  | .ok [s] =>
    if s = .empty then .ok none
    else if s.isReserved then .error (.reservedSymbol s.text source)
    else .ok (some s)
  | .ok _ => .error (.singleSymbolExpected source)

/-- The arrows of a rule that stand outside tags: for each the characters before it and those after it. `depth` counts the tags
that are open, `before` holds the characters read so far, the last one first. -/
def arrowSplits (depth : Nat) (before : List Char) : List Char → List (List Char × List Char)
  | [] => []
  | c :: rest =>
    let depth := if c = '[' then depth + 1 else if c = ']' then depth - 1 else depth
    let later := arrowSplits depth (c :: before) rest
    match c, rest with
    | '-', '>' :: after => if depth = 0 then (before.reverse, after) :: later else later
    | _, _ => later

namespace Pair

/-- The kind of a pair. -/
def kind : Pair → Kind
  | .assimilation .. => .assimilation
  | .deletion _ => .deletion
  | .insertion _ => .insertion

/-- The symbol that is replaced; an insertion replaces the empty symbol of a gap. -/
def input : Pair → Symbol
  | .assimilation i _ => i
  | .deletion i => i
  | .insertion _ => .empty

/-- The symbol that is written; a deletion writes the empty symbol. -/
def output : Pair → Symbol
  | .assimilation _ o => o
  | .deletion _ => .empty
  | .insertion o => o

/-- The pair with two sides, of which one may be blank. -/
def ofSides (input output : String) : Except RuleError Pair :=
  match parseSide input with
  | .error e => .error e
  | .ok i =>
    match parseSide output with
    | .error e => .error e
    | .ok o =>
      match i, o with
      | some i, some o => .ok (.assimilation i o)
      | some i, none => .ok (.deletion i)
      | none, some o => .ok (.insertion o)
      | none, none => .error (.invalidPair input output)

/-- Reads a pair of the form `IN -> OUT`. -/
def parse (rule : String) : Except RuleError Pair :=
  match arrowSplits 0 [] rule.toList with
  | [(before, after)] => ofSides (String.ofList before) (String.ofList after)
  | _ => .error (.malformedRule rule)

/-- A pair as it is written. -/
def text (p : Pair) : String := p.input.text ++ " -> " ++ p.output.text

end Pair

end ReplaceRules
