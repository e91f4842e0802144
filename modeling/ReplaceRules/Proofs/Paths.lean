import ReplaceRules.Proofs.Written
import ReplaceRules.State

/-!
# The paths of a set of states

A set of states is looked at through its paths. `WellFormed` is what every set of states is that is made by adding states: no
path has two numbers, the initial state comes first, and each state knows how much of its path is written.

Main statements: adding a path adds that path and nothing else, and leaves the numbers of the others (`states_intern`,
`find?_of_prefix`); `longestSuffix` finds the longest path that ends a window (`path_longestSuffix_suffix`,
`length_le_longestSuffix`).
-/

namespace ReplaceRules

namespace StateSet

/-- The paths of the states of a set, by number. -/
def paths (q : StateSet) : List (List Symbol) := q.states.map (·.path)

/-- What a set of states is that was made by adding states. -/
structure WellFormed (q : StateSet) (ps : Patterns) : Prop where
  nodup : q.paths.Nodup
  initial : q.paths[0]? = some []
  written : ∀ s ∈ q.states, s.written = ps.written s.path

variable {q q' : StateSet} {ps : Patterns}

@[simp] theorem length_paths (q : StateSet) : q.paths.length = q.size := by simp [paths, size]

/-! ## Numbers of paths -/

/-- The path of a state stands at the number of the state. -/
theorem path_state (q : StateSet) {id : Nat} (h : id < q.size) : q.paths[id]? = some (q.state id).path := by
  simp only [paths, List.getElem?_map, state, size] at h ⊢
  rw [List.getElem?_eq_getElem h]
  rfl

theorem state_mem (q : StateSet) {id : Nat} (h : id < q.size) : q.state id ∈ q.states := by
  unfold state size at *
  rw [List.getElem?_eq_getElem h]
  exact List.getElem_mem h

theorem path_mem_paths (q : StateSet) {id : Nat} (h : id < q.size) : (q.state id).path ∈ q.paths :=
  List.mem_map_of_mem (q.state_mem h)

/-- The number of a path is a number of a state with that path. -/
theorem getElem?_of_find? {path : List Symbol} {id : Nat} (h : q.find? path = some id) : q.paths[id]? = some path := by
  rw [find?_eq_findIdx?, List.findIdx?_eq_some_iff_getElem] at h
  obtain ⟨hl, hp, _⟩ := h
  simp only [paths, List.getElem?_map, List.getElem?_eq_getElem hl]
  simpa using hp

/-- A path that is found has the number of a state. -/
theorem lt_size_of_find? {path : List Symbol} {id : Nat} (h : q.find? path = some id) : id < q.size := by
  rw [← length_paths]
  exact (List.getElem?_eq_some_iff.mp (getElem?_of_find? h)).1

/-- This state has the path. -/
theorem path_state_of_find? {path : List Symbol} {id : Nat} (h : q.find? path = some id) : (q.state id).path = path := by
  have hp := q.path_state (lt_size_of_find? h)
  rw [getElem?_of_find? h, Option.some.injEq] at hp
  exact hp.symm

/-- A path is not found if no state has it. -/
theorem find?_eq_none_iff {path : List Symbol} : q.find? path = none ↔ path ∉ q.paths := by
  rw [find?_eq_findIdx?, List.findIdx?_eq_none_iff]
  simp only [paths, List.mem_map, decide_eq_false_iff_not, not_exists, not_and]

/-- The path of a state is found. -/
theorem exists_find?_of_mem {path : List Symbol} (h : path ∈ q.paths) : ∃ id, q.find? path = some id := by
  cases hf : q.find? path with
  | none => exact absurd h (find?_eq_none_iff.mp hf)
  | some id => exact ⟨id, rfl⟩

/-- No path has two numbers. -/
theorem WellFormed.find?_eq_some_iff (hw : q.WellFormed ps) {path : List Symbol} {id : Nat} :
    q.find? path = some id ↔ q.paths[id]? = some path := by
  constructor
  · exact getElem?_of_find?
  · intro h
    obtain ⟨id', hf⟩ := exists_find?_of_mem (List.mem_of_getElem? h)
    have hl := (List.getElem?_eq_some_iff.mp h).1
    rw [hf, (List.getElem?_inj hl hw.nodup).mp (h.trans (getElem?_of_find? hf).symm)]

/-- The path of a state is found under the number of the state. -/
theorem WellFormed.find?_path_state (hw : q.WellFormed ps) {id : Nat} (h : id < q.size) :
    q.find? (q.state id).path = some id :=
  hw.find?_eq_some_iff.mpr (q.path_state h)

/-- Where no path has two numbers, states with the same path are the same state. -/
theorem eq_of_path_eq (hn : q.paths.Nodup) {id id' : Nat} (h : id < q.size) (h' : id' < q.size)
    (he : (q.state id).path = (q.state id').path) : id = id' := by
  have hl : id < q.paths.length := by rw [length_paths]; exact h
  apply (List.getElem?_inj hl hn).mp
  rw [q.path_state h, q.path_state h', he]

/-- Two numbers are not given to one path. -/
theorem WellFormed.eq_of_path_eq (hw : q.WellFormed ps) {id id' : Nat} (h : id < q.size) (h' : id' < q.size)
    (he : (q.state id).path = (q.state id').path) : id = id' :=
  StateSet.eq_of_path_eq hw.nodup h h' he

/-- There is an initial state. -/
theorem WellFormed.size_pos (hw : q.WellFormed ps) : 0 < q.size := by
  rw [← length_paths]
  exact (List.getElem?_eq_some_iff.mp hw.initial).1

theorem WellFormed.nil_mem (hw : q.WellFormed ps) : [] ∈ q.paths := List.mem_of_getElem? hw.initial

/-- The empty path is that of the initial state. -/
theorem WellFormed.path_zero (hw : q.WellFormed ps) : (q.state 0).path = [] := by
  have hp := q.path_state hw.size_pos
  rw [hw.initial, Option.some.injEq] at hp
  exact hp.symm

/-- Each state knows how much of its path is written. -/
theorem WellFormed.written_state (hw : q.WellFormed ps) {id : Nat} (h : id < q.size) :
    (q.state id).written = ps.written (q.state id).path :=
  hw.written _ (q.state_mem h)

/-- A state holds back the symbols of its path that are not written. -/
theorem WellFormed.length_pending (hw : q.WellFormed ps) {id : Nat} (h : id < q.size) :
    (q.state id).pending.length = (q.state id).path.length - ps.written (q.state id).path := by
  rw [State.pending, List.length_drop, hw.written_state h]

/-! ## Adding states -/

/-- Adding a path adds a state behind the others, or does nothing if a state has the path. -/
theorem states_intern (q : StateSet) (ps : Patterns) (path : List Symbol) :
    (q.intern ps path).states = if path ∈ q.paths then q.states else q.states ++ [⟨path, ps.written path⟩] := by
  unfold intern
  split
  · next id h => rw [if_pos (List.mem_of_getElem? (getElem?_of_find? h))]
  · next h =>
    rw [if_neg (find?_eq_none_iff.mp h)]
    rfl

/-- It adds the path and nothing else. -/
theorem mem_paths_intern {path other : List Symbol} : other ∈ (q.intern ps path).paths ↔ other ∈ q.paths ∨ other = path := by
  unfold paths
  rw [states_intern]
  split
  · next h => exact ⟨Or.inl, fun ho => ho.elim id fun he => he ▸ h⟩
  · simp

/-- A path that is new takes one more number. -/
theorem size_intern_of_notMem {path : List Symbol} (h : path ∉ q.paths) : (q.intern ps path).size = q.size + 1 := by
  simp [size, states_intern, h]

/-- The other states keep their numbers. -/
theorem states_prefix_intern (q : StateSet) (ps : Patterns) (path : List Symbol) : q.states <+: (q.intern ps path).states := by
  rw [states_intern]
  split
  · exact List.prefix_refl _
  · exact List.prefix_append _ _

/-- The set that has just the initial state is well-formed. -/
theorem wellFormed_initial (shape : Shape) (ps : Patterns) : (initial shape).WellFormed ps := by
  refine ⟨by simp [paths, initial], by simp [paths, initial, State.initial], ?_⟩
  intro s hs
  have hs' : s = .initial := by simpa [initial] using hs
  rw [hs']
  rfl

/-- A path that is new comes last. -/
theorem paths_intern_of_notMem {path : List Symbol} (h : path ∉ q.paths) : (q.intern ps path).paths = q.paths ++ [path] := by
  rw [paths, states_intern, if_neg h, List.map_append, ← paths]
  rfl

/-- Adding a state gives no path a second number. -/
theorem nodup_paths_intern (hn : q.paths.Nodup) (path : List Symbol) : (q.intern ps path).paths.Nodup := by
  by_cases h : path ∈ q.paths
  · have hp : (q.intern ps path).paths = q.paths := by rw [paths, states_intern, if_pos h, paths]
    exact hp ▸ hn
  · rw [paths_intern_of_notMem h, List.nodup_append]
    refine ⟨hn, by simp, ?_⟩
    intro a ha b hb hab
    rw [List.mem_singleton] at hb
    exact h (hb ▸ hab ▸ ha)

/-- A set stays well-formed when a path is added. -/
theorem WellFormed.intern (hw : q.WellFormed ps) (path : List Symbol) : (q.intern ps path).WellFormed ps := by
  refine ⟨nodup_paths_intern hw.nodup path, ?_, ?_⟩
  · obtain ⟨more, hm⟩ := (states_prefix_intern q ps path).map (·.path)
    have hl : 0 < q.paths.length := by rw [length_paths]; exact hw.size_pos
    rw [paths, ← hm, ← paths, List.getElem?_append_left hl, hw.initial]
  · intro s hs
    rw [states_intern] at hs
    split at hs
    · exact hw.written s hs
    · rw [List.mem_append, List.mem_singleton] at hs
      rcases hs with hs | rfl
      · exact hw.written s hs
      · rfl

/-- The sets of states that are made by adding states one by one, each for some patterns. -/
inductive Built : StateSet → Prop where
  | initial (shape : Shape) : Built (.initial shape)
  | intern {q : StateSet} (h : Built q) (ps : Patterns) (path : List Symbol) : Built (q.intern ps path)

/-- In a set that was made by adding paths no path has two numbers. -/
theorem Built.nodup_paths (h : q.Built) : q.paths.Nodup := by
  induction h with
  | initial shape => simp [paths, StateSet.initial]
  | intern _ _ path ih => exact nodup_paths_intern ih path

theorem internAll_cons (q : StateSet) (ps : Patterns) (path : List Symbol) (rest : List (List Symbol)) :
    q.internAll ps (path :: rest) = (q.intern ps path).internAll ps rest := rfl

/-- A set stays well-formed when paths are added. -/
theorem WellFormed.internAll (hw : q.WellFormed ps) (l : List (List Symbol)) : (q.internAll ps l).WellFormed ps := by
  induction l generalizing q with
  | nil => exact hw
  | cons path rest ih => exact ih (hw.intern path)

/-- Adding paths adds these paths and nothing else. -/
theorem mem_paths_internAll {l : List (List Symbol)} {path : List Symbol} :
    path ∈ (q.internAll ps l).paths ↔ path ∈ q.paths ∨ path ∈ l := by
  induction l generalizing q with
  | nil => simp [StateSet.internAll]
  | cons other rest ih => rw [internAll_cons, ih, mem_paths_intern, List.mem_cons, or_assoc]

/-- A path keeps its number when states are added. -/
theorem find?_of_prefix (h : q.states <+: q'.states) {path : List Symbol} {id : Nat} (hf : q.find? path = some id) :
    q'.find? path = some id := by
  rw [find?_eq_findIdx?] at hf ⊢
  exact h.findIdx?_eq_some hf

theorem size_le_of_prefix (h : q.states <+: q'.states) : q.size ≤ q'.size := h.length_le

/-- A state stays what it is when states are added. -/
theorem state_of_prefix (h : q.states <+: q'.states) {id : Nat} (hid : id < q.size) : q'.state id = q.state id := by
  obtain ⟨more, he⟩ := h
  unfold state
  rw [← he, List.getElem?_append_left hid]

/-! ## The longest path that ends a window -/

/-- The state that is found is a state, and its path ends the window. -/
theorem WellFormed.longestSuffix_spec (hw : q.WellFormed ps) (window : List Symbol) :
    q.longestSuffix window < q.size ∧ (q.state (q.longestSuffix window)).path <:+ window := by
  induction window with
  | nil =>
    rw [longestSuffix_nil, hw.path_zero]
    exact ⟨hw.size_pos, List.suffix_refl _⟩
  | cons s rest ih =>
    rw [longestSuffix_cons]
    cases hf : q.find? (s :: rest) with
    | none => exact ⟨ih.1, ih.2.trans (List.suffix_cons s rest)⟩
    | some id =>
      rw [Option.getD_some, path_state_of_find? hf]
      exact ⟨lt_size_of_find? hf, List.suffix_refl _⟩

/-- The longest path that ends a window has the number of a state. -/
theorem WellFormed.longestSuffix_lt (hw : q.WellFormed ps) (window : List Symbol) : q.longestSuffix window < q.size :=
  (hw.longestSuffix_spec window).1

/-- The longest path that ends a window ends it. -/
theorem WellFormed.path_longestSuffix_suffix (hw : q.WellFormed ps) (window : List Symbol) :
    (q.state (q.longestSuffix window)).path <:+ window :=
  (hw.longestSuffix_spec window).2

/-- No longer path ends the window. -/
theorem length_le_longestSuffix {path window : List Symbol} (hp : path ∈ q.paths) (hs : path <:+ window) :
    path.length ≤ (q.state (q.longestSuffix window)).path.length := by
  induction window with
  | nil => simp [List.suffix_nil.mp hs]
  | cons s rest ih =>
    rw [longestSuffix_cons]
    rcases List.suffix_cons_iff.mp hs with rfl | hr
    · obtain ⟨id, hf⟩ := exists_find?_of_mem hp
      rw [hf, Option.getD_some, path_state_of_find? hf]
    · cases hf : q.find? (s :: rest) with
      | none => exact ih hr
      | some id =>
        rw [Option.getD_some, path_state_of_find? hf]
        exact hs.length_le

/-- A path that ends the window ends the path that is found. -/
theorem WellFormed.suffix_longestSuffix (hw : q.WellFormed ps) {path window : List Symbol} (hp : path ∈ q.paths)
    (hs : path <:+ window) : path <:+ (q.state (q.longestSuffix window)).path :=
  List.suffix_of_suffix_length_le hs (hw.path_longestSuffix_suffix window) (length_le_longestSuffix hp hs)

/-- A window that is a path leads to its state. -/
theorem WellFormed.longestSuffix_of_find? (hw : q.WellFormed ps) {window : List Symbol} {id : Nat}
    (h : q.find? window = some id) : q.longestSuffix window = id := by
  cases window with
  | nil =>
    have h0 := hw.find?_eq_some_iff.mpr hw.initial
    rw [h, Option.some.injEq] at h0
    rw [longestSuffix_nil, h0]
  | cons s rest => rw [longestSuffix_cons, h, Option.getD_some]

/-- Two windows lead to the same state if each of the two paths that are found ends both. -/
theorem WellFormed.longestSuffix_eq (hw : q.WellFormed ps) {window window' : List Symbol}
    (h : (q.state (q.longestSuffix window)).path <:+ window') (h' : (q.state (q.longestSuffix window')).path <:+ window) :
    q.longestSuffix window = q.longestSuffix window' := by
  have hl := hw.longestSuffix_lt window
  have hl' := hw.longestSuffix_lt window'
  have hle := length_le_longestSuffix (q.path_mem_paths hl) h
  have hs := hw.suffix_longestSuffix (q.path_mem_paths hl') h'
  exact hw.eq_of_path_eq hl hl' (hs.eq_of_length_le hle).symm

end StateSet

end ReplaceRules
