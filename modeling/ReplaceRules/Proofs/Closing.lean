import Mathlib.Data.List.Perm.Subperm
import ReplaceRules.Proofs.Carry

/-!
# Adding carry states comes to an end

`Grows` is the step relation of the closing: each step adds the carry state that one window needs. Whatever the order of the
steps, the invariant `Tracks` is kept (`Grows.tracks`) and no number changes (`Grows.prefix_states`).

A path of a set that tracks patterns is at most as long as the longest left side and the longest right side together
(`length_le_of_path`), so there are only finitely many (`Tracks.size_lt`), and a round that adds nothing comes before the rounds
are used up. Main statement: `close` gives a closed set, and more rounds would not change it (`Tracks.closed_close`,
`Tracks.closeWithin_eq_close`).
-/

namespace ReplaceRules

/-! ## The length of paths -/

theorem foldl_max_le_iff {l : List Nat} {a k : Nat} : l.foldl max a ≤ k ↔ a ≤ k ∧ ∀ x ∈ l, x ≤ k := by
  induction l generalizing a with
  | nil => simp
  | cons b rest ih => rw [List.foldl_cons, ih, Nat.max_le, List.forall_mem_cons, and_assoc]

namespace Patterns

variable {ps : Patterns}

/-- The focus of a pattern stands behind its left side. -/
theorem focus_le_longestLeft {p : Pattern} (hp : p ∈ ps.toList) : p.focus ≤ ps.longestLeft :=
  (foldl_max_le_iff.mp (Nat.le_refl ps.longestLeft)).2 _ (List.mem_map_of_mem hp)

/-- Behind the focus of a pattern stands its right side. -/
theorem length_le_longestRight {p : Pattern} (hp : p ∈ ps.toList) : p.symbols.length ≤ p.focus + 1 + ps.longestRight := by
  have h := (foldl_max_le_iff.mp (Nat.le_refl ps.longestRight)).2 _
    (List.mem_map_of_mem (f := fun p : Pattern => p.symbols.length - p.focus - 1) hp)
  have hf := Pattern.focus_lt_length hp
  omega

/-- No path is longer than the longest left side and the longest right side together. -/
theorem length_le_of_path {path : List Symbol} (h : ps.Begins path ∨ ps.Remembers path) :
    path.length ≤ ps.longestLeft + ps.longestRight := by
  rcases h with ⟨p, hp, _, hl⟩ | ⟨p, ho, r, hr, i, hl, hi⟩
  · have h1 := focus_le_longestLeft hp
    have h2 := length_le_longestRight hp
    omega
  · have h1 := focus_le_longestLeft (occurrence?_eq_some ho).1
    have h2 := length_le_longestRight hr
    have h3 := (Pattern.isLive_iff.mp hl).2.1
    rw [List.length_drop] at h3
    omega

end Patterns

/-! ## The number of paths -/

/-- The lists of some symbols up to a length. -/
def wordsUpTo (symbols : List Symbol) : Nat → List (List Symbol)
  | 0 => [[]]
  | n + 1 => [] :: symbols.flatMap fun s => (wordsUpTo symbols n).map (s :: ·)

/-- Every list that is not too long is listed. -/
theorem mem_wordsUpTo {symbols word : List Symbol} {n : Nat} (hl : word.length ≤ n) (hs : ∀ s ∈ word, s ∈ symbols) :
    word ∈ wordsUpTo symbols n := by
  induction n generalizing word with
  | zero => simp [wordsUpTo, List.eq_nil_of_length_eq_zero (Nat.le_zero.mp hl)]
  | succ n ih =>
    cases word with
    | nil => exact List.mem_cons_self
    | cons s rest =>
      have hr := ih (Nat.le_of_succ_le_succ hl) fun t ht => hs t (List.mem_cons_of_mem s ht)
      have hm : s :: rest ∈ (wordsUpTo symbols n).map (s :: ·) := List.mem_map_of_mem hr
      exact List.mem_cons_of_mem _ (List.mem_flatMap.mpr ⟨s, hs s List.mem_cons_self, hm⟩)

/-- There is one choice more than there are symbols for each place: the list may have ended. -/
theorem length_wordsUpTo_le (symbols : List Symbol) (n : Nat) :
    (wordsUpTo symbols n).length ≤ Nat.pow (symbols.length + 1) n := by
  induction n with
  | zero => simp [wordsUpTo]
  | succ n ih =>
    have hpos : 1 ≤ Nat.pow (symbols.length + 1) n := Nat.pow_pos (Nat.succ_pos _)
    calc (wordsUpTo symbols (n + 1)).length = symbols.length * (wordsUpTo symbols n).length + 1 := by
          simp [wordsUpTo, List.length_flatMap]
      _ ≤ symbols.length * Nat.pow (symbols.length + 1) n + Nat.pow (symbols.length + 1) n :=
          Nat.add_le_add (Nat.mul_le_mul_left _ ih) hpos
      _ = Nat.pow (symbols.length + 1) n * (symbols.length + 1) := by rw [Nat.mul_succ, Nat.mul_comm]

namespace StateSet

variable {q q' : StateSet} {ps : Patterns} {a : Alphabet}

/-- There are fewer states than rounds: their paths are lists of known symbols that are not too long. -/
theorem Tracks.size_lt (ht : q.Tracks ps) (ha : a.Knows ps) : q.size < ps.closingRounds a := by
  have hsub : q.paths ⊆ wordsUpTo a.symbols (ps.longestLeft + ps.longestRight) := fun path hp =>
    mem_wordsUpTo (Patterns.length_le_of_path (ht.paths_of path hp)) fun _ hs => ht.mem_symbols ha hp hs
  have hle := (List.subperm_of_subset ht.nodup hsub).length_le
  rw [length_paths] at hle
  exact Nat.lt_succ_of_le (hle.trans (length_wordsUpTo_le _ _))

/-! ## The steps of the closing -/

/-- The sets of states that adding carry states one by one passes through. -/
inductive Grows (ps : Patterns) (a : Alphabet) (q : StateSet) : StateSet → Prop where
  | start : Grows ps a q q
  | carry {q' : StateSet} {s : State} {x : Symbol} (h : Grows ps a q q') (hs : s ∈ q'.states) (hx : x ∈ a.symbols) :
      Grows ps a q (q'.addCarry ps (s.path ++ [x]))

theorem states_prefix_addCarry (q : StateSet) (ps : Patterns) (window : List Symbol) :
    q.states <+: (q.addCarry ps window).states := by
  unfold StateSet.addCarry
  split
  · exact states_prefix_intern q ps _
  · exact List.prefix_refl _

/-- Every step keeps the invariant. -/
theorem Grows.tracks (h : Grows ps a q q') (ht : q.Tracks ps) : q'.Tracks ps := by
  induction h with
  | start => exact ht
  | carry _ _ _ ih => exact ih.addCarry _

/-- Every step keeps the states that are there. -/
theorem Grows.prefix_states (h : Grows ps a q q') : q.states <+: q'.states := by
  induction h with
  | start => exact List.prefix_refl _
  | carry _ _ _ ih => exact ih.trans (states_prefix_addCarry _ _ _)

/-- Windows of states that are there are taken one after the other. -/
theorem Grows.foldl_addCarry {windows : List (List Symbol)} (h : Grows ps a q q')
    (hw : ∀ window ∈ windows, ∃ s ∈ q'.states, ∃ x ∈ a.symbols, window = s.path ++ [x]) :
    Grows ps a q (windows.foldl (StateSet.addCarry ps) q') := by
  induction windows generalizing q' with
  | nil => exact h
  | cons window rest ih =>
    obtain ⟨s, hs, x, hx, rfl⟩ := hw window List.mem_cons_self
    refine ih (h.carry hs hx) ?_
    intro other ho
    obtain ⟨t, ht, y, hy, rfl⟩ := hw other (List.mem_cons_of_mem _ ho)
    exact ⟨t, (states_prefix_addCarry _ _ _).subset ht, y, hy, rfl⟩

/-- The windows of a round. -/
theorem mem_windows {window : List Symbol} :
    window ∈ (q.states.flatMap fun s => a.symbols.map (s.path ++ [·])) ↔
      ∃ s ∈ q.states, ∃ x ∈ a.symbols, window = s.path ++ [x] := by
  simp only [List.mem_flatMap, List.mem_map, eq_comm]

/-- A round is made of steps. -/
theorem Grows.addCarries (h : Grows ps a q q') : Grows ps a q (q'.addCarries ps a) :=
  h.foldl_addCarry fun _ hw => mem_windows.mp hw

/-- Rounds are made of steps. -/
theorem Grows.closeWithin (h : Grows ps a q q') (rounds : Nat) : Grows ps a q (StateSet.closeWithin ps a rounds q') := by
  induction rounds generalizing q' with
  | zero => exact h
  | succ rounds ih =>
    unfold StateSet.closeWithin
    dsimp only
    split
    · exact h
    · exact ih h.addCarries

/-! ## The last round -/

/-- A window that needs no carry state adds none. -/
theorem addCarry_of_none {window : List Symbol} (h : q.carryStart? ps window (q.longestSuffix window) = none) :
    q.addCarry ps window = q := by
  unfold StateSet.addCarry
  rw [h]

/-- A carry state that is needed makes the set larger. -/
theorem WellFormed.size_addCarry (hw : q.WellFormed ps) {window : List Symbol} {start : Nat}
    (h : q.carryStart? ps window (q.longestSuffix window) = some start) : (q.addCarry ps window).size = q.size + 1 := by
  unfold StateSet.addCarry
  rw [h]
  exact size_intern_of_notMem (hw.remembers_of_carryStart? h).1

theorem states_prefix_foldl_addCarry (q : StateSet) (ps : Patterns) (windows : List (List Symbol)) :
    q.states <+: (windows.foldl (StateSet.addCarry ps) q).states := by
  induction windows generalizing q with
  | nil => exact List.prefix_refl _
  | cons window rest ih => exact (states_prefix_addCarry q ps window).trans (ih _)

/-- If going through some windows adds no state, none of them needs a carry state. -/
theorem WellFormed.carryStart?_eq_none_of_size_eq (hw : q.WellFormed ps) {windows : List (List Symbol)}
    (hs : (windows.foldl (StateSet.addCarry ps) q).size = q.size) :
    ∀ window ∈ windows, q.carryStart? ps window (q.longestSuffix window) = none := by
  induction windows with
  | nil => exact fun _ h => absurd h List.not_mem_nil
  | cons window rest ih =>
    rw [List.foldl_cons] at hs
    have hle := (states_prefix_foldl_addCarry (q.addCarry ps window) ps rest).length_le
    cases h : q.carryStart? ps window (q.longestSuffix window) with
    | some start =>
      have hone := hw.size_addCarry h
      unfold size at hs hone
      omega
    | none =>
      rw [addCarry_of_none h] at hs
      intro other ho
      rcases List.mem_cons.mp ho with rfl | ho
      · exact h
      · exact ih hs other ho

/-- If going through windows that need no carry state, the set stays as it is. -/
theorem foldl_addCarry_of_none {windows : List (List Symbol)}
    (h : ∀ window ∈ windows, q.carryStart? ps window (q.longestSuffix window) = none) :
    windows.foldl (StateSet.addCarry ps) q = q := by
  induction windows with
  | nil => rfl
  | cons window rest ih =>
    rw [List.foldl_cons, addCarry_of_none (h window List.mem_cons_self)]
    exact ih fun other ho => h other (List.mem_cons_of_mem window ho)

/-- A round that adds nothing shows that the set is closed. -/
theorem WellFormed.closed_of_size_eq (hw : q.WellFormed ps) (hs : (q.addCarries ps a).size = q.size) : q.Closed ps a :=
  fun s hsm x hx => hw.carryStart?_eq_none_of_size_eq hs _ (mem_windows.mpr ⟨s, hsm, x, hx, rfl⟩)

/-- A round adds nothing to a closed set. -/
theorem Closed.addCarries_eq (hc : q.Closed ps a) : q.addCarries ps a = q := by
  refine foldl_addCarry_of_none ?_
  intro window hw
  obtain ⟨s, hs, x, hx, rfl⟩ := mem_windows.mp hw
  exact hc s hs x hx

/-- Rounds add nothing to a closed set. -/
theorem Closed.closeWithin_eq (hc : q.Closed ps a) (rounds : Nat) : closeWithin ps a rounds q = q := by
  cases rounds with
  | zero => rfl
  | succ rounds => simp [closeWithin, hc.addCarries_eq]

/-- Each round but the last adds a state, so enough rounds give a closed set. -/
theorem Tracks.closed_closeWithin (ht : q.Tracks ps) (ha : a.Knows ps) {rounds : Nat}
    (hr : ps.closingRounds a ≤ rounds + q.size) : (closeWithin ps a rounds q).Closed ps a := by
  induction rounds generalizing q with
  | zero =>
    have := ht.size_lt ha
    omega
  | succ rounds ih =>
    unfold closeWithin
    dsimp only
    split
    · next hs => exact ht.closed_of_size_eq hs
    · next hs =>
      have hg : Grows ps a q (q.addCarries ps a) := Grows.start.addCarries
      have hle := size_le_of_prefix hg.prefix_states
      exact ih (hg.tracks ht) (by omega)

/-- More rounds than it takes to close a set change nothing. -/
theorem closeWithin_add {rounds : Nat} (hc : (closeWithin ps a rounds q).Closed ps a) (more : Nat) :
    closeWithin ps a (rounds + more) q = closeWithin ps a rounds q := by
  induction rounds generalizing q with
  | zero =>
    rw [Nat.zero_add]
    exact hc.closeWithin_eq more
  | succ rounds ih =>
    rw [Nat.add_right_comm]
    unfold closeWithin at hc ⊢
    dsimp only at hc ⊢
    split
    · rfl
    · next hs =>
      rw [if_neg hs] at hc
      exact ih hc

/-- Adding carry states until none is missing gives a closed set. -/
theorem Tracks.closed_close (ht : q.Tracks ps) (ha : a.Knows ps) : (q.close ps a).Closed ps a :=
  ht.closed_closeWithin ha (Nat.le_add_right _ _)

/-- It ends because no carry state is missing, and not because the rounds are used up. -/
theorem Tracks.closeWithin_eq_close (ht : q.Tracks ps) (ha : a.Knows ps) {rounds : Nat} (hr : ps.closingRounds a ≤ rounds) :
    closeWithin ps a rounds q = q.close ps a := by
  obtain ⟨more, rfl⟩ := Nat.exists_eq_add_of_le hr
  exact closeWithin_add (ht.closed_close ha) more

theorem grows_close (q : StateSet) (ps : Patterns) (a : Alphabet) : Grows ps a q (q.close ps a) := Grows.start.closeWithin _

end StateSet

end ReplaceRules
