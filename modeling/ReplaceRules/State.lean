import ReplaceRules.Pattern
import ReplaceRules.State.Endings

/-!
# States

A state is named by its path, the symbols read since the last place where no partial match was pending. The first `written`
symbols of the path have been written out; the others are held back until it is known whether they are replaced. A set of
states numbers them in the order in which they are added, and never gives a path two numbers; number 0 is the empty path.
-/

namespace ReplaceRules

/-- A state: its path, and how much of the path has been written out. -/
structure State where
  path : List Symbol
  written : Nat
  deriving DecidableEq, Repr, Inhabited

namespace State

/-- The state in which a machine starts. -/
def initial : State := ⟨[], 0⟩

/-- The symbols that have been read but not written. -/
def pending (s : State) : List Symbol := s.path.drop s.written

/-- How a state is shown. -/
def text (s : State) : String := "<" ++ joinOrLambda s.path ++ ">"

end State

/-- The states of a machine whose contexts have one shape. A state is referred to by its place in the list. The paths are filed by
their endings, too, to be found without a search through the list. -/
structure StateSet where
  shape : Shape
  states : List State
  endings : Endings
  /-- A path is filed under its place in the list. -/
  filed : ∀ path, path ≠ [] → endings.find? path.reverse = states.findIdx? (·.path = path)
  deriving Repr

namespace StateSet

/-- The set that has just the initial state. -/
def initial (shape : Shape) : StateSet where
  shape
  states := [.initial]
  endings := .none
  filed path h := by
    have : ¬[] = path := fun e => h e.symm
    cases hr : path.reverse <;> simp [Endings.find?, State.initial, this]

/-- The number of states. -/
def size (q : StateSet) : Nat := q.states.length

/-- The number of the state with a path. -/
def find? (q : StateSet) (path : List Symbol) : Option Nat :=
  if path = [] then q.states.findIdx? (·.path = []) else q.endings.find? path.reverse

/-- A path is found where it stands in the list first. -/
theorem find?_eq_findIdx? (q : StateSet) (path : List Symbol) : q.find? path = q.states.findIdx? (·.path = path) := by
  unfold find?
  split
  · next h => rw [h]
  · next h => exact q.filed path h

/-- The state with a number; the initial state if there is none. -/
def state (q : StateSet) (id : Nat) : State := q.states[id]?.getD .initial

/-- Adds the state with a path that no state has. -/
def add (q : StateSet) (ps : Patterns) (path : List Symbol) (h : q.find? path = none) : StateSet where
  shape := q.shape
  states := q.states ++ [⟨path, ps.written path⟩]
  endings := q.endings.insert q.size path.reverse
  filed other ho := by
    rw [find?_eq_findIdx?] at h
    by_cases hp : path = []
    · subst hp
      have : ¬[] = other := fun e => ho e.symm
      simp [← q.filed other ho, this]
    · rw [Endings.find?_insert _ _ (by simpa using hp) (by simpa using ho)]
      by_cases he : other = path
      · subst he
        simp [List.findIdx?_append, h, size]
      · have : ¬path = other := fun e => he e.symm
        simp [List.findIdx?_append, he, this, ← q.filed other ho]

/-- Adds the state with a path, unless there is one. -/
def intern (q : StateSet) (ps : Patterns) (path : List Symbol) : StateSet :=
  match h : q.find? path with
  | some _ => q
  | none => q.add ps path h

/-- Adds the states with some paths, in their order. -/
def internAll (q : StateSet) (ps : Patterns) (paths : List (List Symbol)) : StateSet :=
  paths.foldl (fun q path => q.intern ps path) q

/-- The number of the state whose path is the longest that ends a window. The empty path ends every window. -/
def longestSuffix (q : StateSet) (window : List Symbol) : Nat := q.endings.longest 0 window.reverse

@[simp] theorem longestSuffix_nil (q : StateSet) : q.longestSuffix [] = 0 := by simp [longestSuffix]

/-- The longest path that ends a window is the window itself, if a state has it, or else the longest that ends the window without
its first symbol. -/
theorem longestSuffix_cons (q : StateSet) (s : Symbol) (rest : List Symbol) :
    q.longestSuffix (s :: rest) = (q.find? (s :: rest)).getD (q.longestSuffix rest) := by
  simp [longestSuffix, find?, Endings.longest_concat]

end StateSet

end ReplaceRules
