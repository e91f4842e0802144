import ReplaceRules.Alphabet

/-!
# What symbols are read as

A machine reads a symbol that it knows as itself, and every other symbol as the wildcard (`Alphabet.read`). The alphabet of some
symbols has these and the wildcard (`mem_ofSymbols_iff`), and a look-up gives the place of what the symbol is read as
(`getElem?_lookup`).
-/

namespace ReplaceRules

/-- A symbol that is inserted becomes a member, if it is none yet. -/
theorem mem_insertSorted_iff {s t : Symbol} {l : List Symbol} : t ∈ insertSorted s l ↔ t = s ∨ t ∈ l := by
  induction l with
  | nil => simp [insertSorted]
  | cons u rest ih =>
    unfold insertSorted
    split
    · rw [List.mem_cons]
    · next he =>
      have hmember : s = u := Std.LawfulEqOrd.eq_of_compare he
      rw [hmember, List.mem_cons, ← or_assoc, or_self]
    · rw [List.mem_cons, ih, List.mem_cons]
      exact or_left_comm

/-- Sorting keeps the members. -/
theorem mem_sortedSymbols_iff {s : Symbol} {l : List Symbol} : s ∈ sortedSymbols l ↔ s ∈ l := by
  induction l with
  | nil => rfl
  | cons t rest ih => rw [sortedSymbols, List.foldr_cons, mem_insertSorted_iff, ← sortedSymbols, ih, List.mem_cons]

namespace Alphabet

/-- An alphabet has the wildcard and the symbols that it is made of. -/
theorem mem_ofSymbols_iff {s : Symbol} {l : List Symbol} : s ∈ (ofSymbols l).symbols ↔ s = .wildcard ∨ s ∈ l := by
  rw [ofSymbols, mem_sortedSymbols_iff, List.mem_cons]

variable {a : Alphabet} {s : Symbol}

/-- A symbol that is found stands at its place. -/
theorem getElem?_of_find? {id : Nat} (h : a.find? s = some id) : a.symbols[id]? = some s := by
  obtain ⟨hl, hp, _⟩ := List.findIdx?_eq_some_iff_getElem.mp h
  rw [List.getElem?_eq_getElem hl]
  simpa using hp

/-- A symbol of the alphabet is found. -/
theorem exists_find?_of_mem (h : s ∈ a.symbols) : ∃ id, a.find? s = some id := by
  cases hf : a.find? s with
  | none =>
    have hn := List.findIdx?_eq_none_iff.mp hf s h
    simp at hn
  | some id => exact ⟨id, rfl⟩

theorem find?_of_notMem (h : s ∉ a.symbols) : a.find? s = none := by
  rw [find?, List.findIdx?_eq_none_iff]
  intro t ht
  rw [decide_eq_false_iff_not]
  exact fun he => h (he ▸ ht)

theorem isNone_find?_iff : (a.find? s).isNone = true ↔ s ∉ a.symbols := by
  constructor
  · intro hn hs
    obtain ⟨id, hf⟩ := exists_find?_of_mem hs
    simp [hf] at hn
  · intro hs
    rw [find?_of_notMem hs]
    rfl

/-- What a symbol is read as: itself if it is known, or else the wildcard. -/
def read (a : Alphabet) (s : Symbol) : Symbol := if s ∈ a.symbols then s else .wildcard

/-- The look-up of a symbol gives the place of the symbol that it is read as. -/
theorem getElem?_lookup (hw : Symbol.wildcard ∈ a.symbols) (s : Symbol) : a.symbols[a.lookup s]? = some (a.read s) := by
  obtain ⟨w, hfw⟩ := exists_find?_of_mem hw
  unfold lookup read
  split
  · next h =>
    obtain ⟨id, hf⟩ := exists_find?_of_mem h
    rw [hf, Option.getD_some]
    exact getElem?_of_find? hf
  · next h =>
    rw [find?_of_notMem h, hfw, Option.getD_none, Option.getD_some]
    exact getElem?_of_find? hfw

/-- A look-up gives the number of a symbol. -/
theorem lookup_lt (hw : Symbol.wildcard ∈ a.symbols) (s : Symbol) : a.lookup s < a.size :=
  (List.getElem?_eq_some_iff.mp (getElem?_lookup hw s)).1

end Alphabet

end ReplaceRules
