import ReplaceRules.Proofs.Occurrence

/-!
# What is final in a text

A partial match at the end of a text that has seen its focus holds the focus back. `le_written_iff` says that `written` is the
place of the earliest focus that is held back, or the length of the text if none is.

Main statements: what is written is final, no matter how the text goes on (`take_written_replaceAll_append`), and reading one
more symbol never takes anything back (`written_le_written_concat`).
-/

namespace ReplaceRules

/-! ## Live partial matches -/

namespace Pattern

variable {p : Pattern}

/-- A path is a partial match that has seen its focus. -/
theorem isLive_iff {path : List Symbol} :
    p.isLive path = true ↔ p.focus < path.length ∧ path.length < p.symbols.length ∧ path <+: p.symbols := by
  simp [isLive, and_assoc]

/-- A partial match was one before its last symbols were read, if it had seen its focus. -/
theorem isLive_of_prefix {shorter path : List Symbol} (h : p.isLive path = true) (hs : shorter <+: path)
    (hf : p.focus < shorter.length) : p.isLive shorter = true := by
  obtain ⟨_, hl, hp⟩ := isLive_iff.mp h
  exact isLive_iff.mpr ⟨hf, Nat.lt_of_le_of_lt hs.length_le hl, hs.trans hp⟩

/-- An occurrence that does not end inside the first part of a text is a partial match at the end of that part. -/
theorem OccursAt.isLive {text more : List Symbol} {i : Nat} (h : p.OccursAt (text ++ more) i) (hi : i < text.length)
    (he : text.length + p.focus < i + p.symbols.length) : p.isLive (text.drop (i - p.focus)) = true := by
  have hf := h.1
  have hl : (text.drop (i - p.focus)).length = text.length - (i - p.focus) := List.length_drop
  refine isLive_iff.mpr ⟨by omega, by omega, ?_⟩
  refine List.prefix_of_prefix_length_le ((List.prefix_append text more).drop _) h.2 (by omega)

end Pattern

/-! ## The earliest focus that is held back -/

theorem le_foldl_min_iff {l : List Nat} {a k : Nat} : k ≤ l.foldl min a ↔ k ≤ a ∧ ∀ x ∈ l, k ≤ x := by
  induction l generalizing a with
  | nil => simp
  | cons b rest ih => rw [List.foldl_cons, ih, Nat.le_min, List.forall_mem_cons, and_assoc]

/-- As much is written as no partial match holds back. -/
theorem Pattern.le_writtenAmong_iff {patterns : List Pattern} {text : List Symbol} {k : Nat} :
    k ≤ writtenAmong patterns text ↔
      k ≤ text.length ∧ ∀ p ∈ patterns, ∀ i, p.isLive (text.drop i) = true → k ≤ i + p.focus := by
  induction text generalizing k with
  | nil => simp [writtenAmong, isLive]
  | cons s rest ih =>
    have hr : k ≤ writtenAmong patterns rest + 1 ↔ k - 1 ≤ writtenAmong patterns rest := by omega
    rw [writtenAmong, le_foldl_min_iff, hr, ih]
    simp only [List.mem_map, List.mem_filter, List.length_cons]
    constructor
    · rintro ⟨⟨hl, hrest⟩, hhead⟩
      refine ⟨by omega, ?_⟩
      intro p hp i hi
      cases i with
      | zero => simpa using hhead p.focus ⟨p, ⟨hp, hi⟩, rfl⟩
      | succ i =>
        have := hrest p hp i hi
        omega
    · rintro ⟨hl, hall⟩
      refine ⟨⟨by omega, ?_⟩, ?_⟩
      · intro p hp i hi
        have := hall p hp (i + 1) hi
        omega
      · rintro _ ⟨p, ⟨hp, hi⟩, rfl⟩
        simpa using hall p hp 0 hi

namespace Patterns

variable {ps : Patterns}

/-- `written` is the place of the earliest focus that is held back, or the length of the text. -/
theorem le_written_iff {text : List Symbol} {k : Nat} :
    k ≤ ps.written text ↔ k ≤ text.length ∧ ∀ p ∈ ps.toList, ∀ i, p.isLive (text.drop i) = true → k ≤ i + p.focus :=
  Pattern.le_writtenAmong_iff

/-- No more is written than was read. -/
theorem written_le_length (ps : Patterns) (text : List Symbol) : ps.written text ≤ text.length :=
  (le_written_iff.mp (Nat.le_refl _)).1

/-- A partial match at the end of a text holds its focus back. -/
theorem written_le_of_isLive {text : List Symbol} {p : Pattern} (hp : p ∈ ps.toList) {i : Nat}
    (h : p.isLive (text.drop i) = true) : ps.written text ≤ i + p.focus :=
  (le_written_iff.mp (Nat.le_refl _)).2 p hp i h

/-- What is held back is held back by a partial match. -/
theorem exists_isLive_of_written_lt {text : List Symbol} (h : ps.written text < text.length) :
    ∃ p ∈ ps.toList, ∃ i, p.isLive (text.drop i) = true ∧ ps.written text = i + p.focus := by
  have hn : ¬(ps.written text + 1 ≤ ps.written text) := Nat.not_succ_le_self _
  rw [le_written_iff] at hn
  simp only [not_and, not_forall] at hn
  obtain ⟨p, hp, i, hi, hk⟩ := hn h
  have := written_le_of_isLive hp hi
  exact ⟨p, hp, i, hi, by omega⟩

/-- The first symbols of a text do not hold anything back. -/
theorem written_append_le (ps : Patterns) (before text : List Symbol) :
    ps.written (before ++ text) ≤ before.length + ps.written text := by
  by_cases h : ps.written text < text.length
  · obtain ⟨p, hp, i, hi, he⟩ := exists_isLive_of_written_lt h
    have hl : p.isLive ((before ++ text).drop (before.length + i)) = true := by rwa [List.drop_length_add_append]
    have := written_le_of_isLive hp hl
    omega
  · have := written_le_length ps (before ++ text)
    rw [List.length_append] at this
    omega

/-- Where no partial match begins before the end part of a text, that part alone says what is held back. -/
theorem written_append {before text : List Symbol}
    (h : ∀ p ∈ ps.toList, ∀ i, p.isLive ((before ++ text).drop i) = true → before.length ≤ i) :
    ps.written (before ++ text) = before.length + ps.written text := by
  apply Nat.le_antisymm (written_append_le ps before text)
  rw [le_written_iff]
  refine ⟨?_, ?_⟩
  · have := written_le_length ps text
    rw [List.length_append]
    omega
  · intro p hp i hi
    obtain ⟨j, rfl⟩ := Nat.exists_eq_add_of_le (h p hp i hi)
    rw [List.drop_length_add_append] at hi
    have := written_le_of_isLive hp hi
    omega

/-- Reading one more symbol takes nothing back. -/
theorem written_le_written_concat (ps : Patterns) (text : List Symbol) (s : Symbol) :
    ps.written text ≤ ps.written (text ++ [s]) := by
  have hw := written_le_length ps text
  rw [le_written_iff]
  refine ⟨by rw [List.length_append]; omega, ?_⟩
  intro p hp i hi
  by_cases hf : i + p.focus < text.length
  · have hs : text.drop i <+: (text ++ [s]).drop i := (List.prefix_append text [s]).drop i
    exact written_le_of_isLive hp (Pattern.isLive_of_prefix hi hs (by rw [List.length_drop]; omega))
  · omega

/-! ## What is written is final -/

/-- On what is written nothing new occurs when the text goes on. -/
theorem occurs_append_iff {text : List Symbol} {i : Nat} (hi : i < ps.written text) (more : List Symbol) :
    ps.Occurs (text ++ more) i ↔ ps.Occurs text i := by
  constructor
  · rintro ⟨p, hp, h⟩
    refine ⟨p, hp, h.of_append_right ?_⟩
    by_contra he
    have hl := written_le_length ps text
    have hf := h.1
    have := written_le_of_isLive hp (h.isLive (by omega) (by omega))
    omega
  · rintro ⟨p, hp, h⟩
    exact ⟨p, hp, h.append_right more⟩

/-- What is written is final, whatever follows. -/
theorem take_written_replaceAll_append (text more : List Symbol) :
    (ps.replaceAll (text ++ more)).take (ps.written text) = (ps.replaceAll text).take (ps.written text) := by
  have h := replaceAll_segment [] more (i := 0) (written_le_length ps text) fun n _ hn => by
    simpa using occurs_append_iff hn more
  simpa using h

end Patterns

end ReplaceRules
