import ReplaceRules.Alphabet
import ReplaceRules.Edge

/-!
# The transition table

The table has one row for each state with one transition for each symbol of the alphabet. It is made of edges in any order: of
several edges for one state and symbol the one that ranks highest is kept, and edges of equal rank are equal. An edge on an
unknown symbol and a missing transition are errors.
-/

namespace ReplaceRules

/-- Why a machine cannot be built or run. -/
inductive TransducerError where
  | rule (error : RuleError)
  | tag (error : TagError)
  /-- A state has no edge on a symbol. -/
  | missingTransition (state symbol : String)
  /-- An edge reads a symbol that is not in the alphabet. -/
  | unknownSymbol (symbol : String)
  deriving DecidableEq, Repr

/-- The wording of an error. -/
def TransducerError.message : TransducerError → String
  | .rule e => e.message
  | .tag e => e.message
  | .missingTransition state symbol => "No transition from state " ++ state ++ " on " ++ quoted symbol
  | .unknownSymbol symbol => "Symbol " ++ quoted symbol ++ " is not part of the alphabet"

/-- What happens when a symbol is read in the state of a row. -/
structure Transition where
  output : List Symbol
  target : Nat
  replaces : Bool
  deriving DecidableEq, Repr, Inhabited

/-- The transitions, by state and symbol. -/
structure Table where
  rows : List (List Transition)
  deriving DecidableEq, Repr

/-- The rank of an edge: a longer path to end in ranks higher, then an edge that replaces; the path and the output decide between
the others, so that edges of equal rank for one state and symbol are equal. -/
def Edge.rank (q : StateSet) (e : Edge) : Nat × Bool × List Symbol × List Symbol :=
  let path := (q.state e.target).path
  (path.length, e.replaces, path, e.output)

/-- Compares two edges by rank. -/
def Edge.compareRank (q : StateSet) (e f : Edge) : Ordering :=
  let a := e.rank q
  let b := f.rank q
  compare a.1 b.1 |>.then (compare a.2.1 b.2.1) |>.then (compare a.2.2.1 b.2.2.1) |>.then (compare a.2.2.2 b.2.2.2)

/-- The edge of highest rank in a list. -/
def Edge.highest? (q : StateSet) : List Edge → Option Edge
  | [] => none
  | e :: rest => some (rest.foldl (fun best f => if f.compareRank q best = .gt then f else best) e)

namespace Table

/-- The transition of a state on a symbol, made of the edges that leave the state. -/
def entry (q : StateSet) (leaving : List Edge) (state : State) (symbol : Symbol) : Except TransducerError Transition :=
  match Edge.highest? q (leaving.filter (·.input = symbol)) with
  | some e => .ok ⟨e.output, e.target, e.replaces⟩
  | none => .error (.missingTransition state.text symbol.text)

/-- Edges by the number of the state that they leave, of so many states. -/
def bySource (states : Nat) (edges : List Edge) : Array (List Edge) :=
  edges.foldr (fun e leaving => leaving.modify e.source (e :: ·)) (Array.replicate states [])

/-- The edges that leave a state keep their order. -/
theorem getElem?_bySource {states : Nat} (edges : List Edge) {id : Nat} (h : id < states) :
    (bySource states edges)[id]? = some (edges.filter (·.source = id)) := by
  induction edges with
  | nil => simp [bySource, h]
  | cons e rest ih =>
    have : bySource states (e :: rest) = (bySource states rest).modify e.source (e :: ·) := rfl
    by_cases he : e.source = id <;> simp [this, Array.getElem?_modify, ih, he]

/-- The table made of some edges. -/
def assemble (edges : List Edge) (q : StateSet) (alphabet : Alphabet) : Except TransducerError Table :=
  match edges.find? fun e => (alphabet.find? e.input).isNone with
  | some e => .error (.unknownSymbol e.input.text)
  | none =>
    let leaving := bySource q.size edges
    match readAll (fun (state, id) => readAll (entry q (leaving[id]?.getD []) state) alphabet.symbols) q.states.zipIdx with
    | .error e => .error e
    | .ok rows => .ok ⟨rows⟩

/-- The transition of a state on a symbol; where the table has none, one that writes nothing and starts again. -/
def get (t : Table) (state symbol : Nat) : Transition := ((t.rows[state]?.getD [])[symbol]?).getD default

/-- All transitions with their state and symbol, by state, then by symbol. -/
def transitions (t : Table) : List (Nat × Nat × Transition) :=
  t.rows.zipIdx.flatMap fun (row, state) => row.zipIdx.map fun (transition, symbol) => (state, symbol, transition)

/-- The number of transitions. -/
def size (t : Table) : Nat := t.rows.flatten.length

end Table

end ReplaceRules
