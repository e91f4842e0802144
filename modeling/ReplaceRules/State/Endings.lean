import ReplaceRules.Symbol

/-!
# Paths filed by their endings

A tree of paths that is entered with the last symbol of a path. So one walk along a window, from its last symbol backwards, meets
all filed paths that end the window, and the last one it meets is the longest.

Paths are given to the tree reversed. The main statements say what is found after a path has been filed, and that the longest
ending of a window is the window itself, if it is filed, or the longest ending of the window without its first symbol.
-/

namespace ReplaceRules

/-- A tree of reversed paths with numbers: the paths that go on with a symbol, and those that go on with another one. `found` is the
number of the path that ends with the symbol. -/
inductive Endings where
  | none
  | node (symbol : Symbol) (found : Option Nat) (longer others : Endings)
  deriving DecidableEq, Repr, Inhabited

namespace Endings

/-- The number of a reversed path. The empty path is not filed. -/
def find? : Endings → List Symbol → Option Nat
  | _, [] => Option.none
  | .none, _ => Option.none
  | .node symbol found longer others, s :: rest =>
    if symbol = s then (if rest = [] then found else longer.find? rest) else others.find? (s :: rest)

/-- The tree that holds just one reversed path. -/
def single (id : Nat) : List Symbol → Endings
  | [] => .none
  | s :: rest => .node s (if rest = [] then some id else Option.none) (single id rest) .none

/-- Files a reversed path under a number. -/
def insert (id : Nat) : Endings → List Symbol → Endings
  | e, [] => e
  | .none, path => single id path
  | .node symbol found longer others, s :: rest =>
    if symbol = s then
      if rest = [] then .node symbol (some id) longer others else .node symbol found (longer.insert id rest) others
    else .node symbol found longer (others.insert id (s :: rest))

/-- The number of the longest filed path that ends a reversed window, or `best` if there is none. -/
def longest (best : Nat) : Endings → List Symbol → Nat
  | _, [] => best
  | .none, _ => best
  | .node symbol found longer others, s :: rest =>
    if symbol = s then longer.longest (found.getD best) rest else others.longest best (s :: rest)

@[simp] theorem find?_nil (e : Endings) : e.find? [] = Option.none := by
  cases e <;> rfl

@[simp] theorem longest_nil (best : Nat) (e : Endings) : e.longest best [] = best := by
  cases e <;> rfl

@[simp] theorem insert_nil (id : Nat) (e : Endings) : e.insert id [] = e := by
  cases e <;> rfl

/-- A tree that was made for one path finds that path only. -/
theorem find?_single (id : Nat) {path other : List Symbol} (h : other ≠ []) :
    (single id path).find? other = if other = path then some id else Option.none := by
  induction path generalizing other with
  | nil => cases other <;> simp_all [single, find?]
  | cons s rest ih =>
    cases other with
    | nil => exact absurd rfl h
    | cons t tail =>
      by_cases hs : s = t
      · subst hs
        cases tail with
        | nil => cases rest <;> simp [single, find?]
        | cons u tail => simp [single, find?, ih]
      · have : ¬t = s := fun h => hs h.symm
        simp [single, find?, hs, this]

/-- After a path has been filed it is found under its number, and every other path as before. -/
theorem find?_insert (id : Nat) (e : Endings) {path other : List Symbol} (hp : path ≠ []) (ho : other ≠ []) :
    (e.insert id path).find? other = if other = path then some id else e.find? other := by
  induction e generalizing path other with
  | none =>
    cases path with
    | nil => exact absurd rfl hp
    | cons s rest => cases other <;> simp_all [insert, find?_single, find?]
  | node symbol found longer others ihl iho =>
    obtain ⟨s, rest, rfl⟩ := List.exists_cons_of_ne_nil hp
    obtain ⟨t, tail, rfl⟩ := List.exists_cons_of_ne_nil ho
    by_cases hs : symbol = s
    · subst hs
      by_cases ht : symbol = t
      · subst ht
        cases rest <;> cases tail <;> simp [insert, find?, ihl]
      · have : ¬t = symbol := fun h => ht h.symm
        cases rest <;> simp [insert, find?, ht, this]
    · by_cases ht : symbol = t
      · subst ht
        simp [insert, find?, hs]
      · simp [insert, find?, hs, ht, iho]

/-- The longest ending of a window is the window itself, if it is filed, or else the longest ending without its first symbol. -/
theorem longest_concat (best : Nat) (e : Endings) (window : List Symbol) (s : Symbol) :
    e.longest best (window ++ [s]) = (e.find? (window ++ [s])).getD (e.longest best window) := by
  induction e generalizing best window with
  | none => cases window <;> simp [longest, find?]
  | node symbol found longer others ihl iho =>
    cases window with
    | nil =>
      by_cases h : symbol = s
      · simp [longest, find?, h]
      · simpa [longest, find?, h] using iho best []
    | cons t rest =>
      by_cases h : symbol = t
      · simp [longest, find?, h, ihl]
      · simpa [longest, find?, h] using iho best (t :: rest)

end Endings

end ReplaceRules
