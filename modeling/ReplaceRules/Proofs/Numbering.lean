import ReplaceRules.Proofs.Construction

/-!
# The numbers of paths

A set of states begins with the initial state and grows by paths that are added, one after the other, in any order and as often as
one likes. It is asked in three ways: for the state with a number, for the number of a path, and for the longest path that ends a
window. The first is answered by the list of states, the others by the tree of endings. `IsNumbering` says what the answers have to
be, all of them in terms of the list.

Main statement: whatever paths are added, all answers are right, a path that is added gets the next free number unless it has one,
and no number ever changes its meaning. Compiling a set of rules does nothing to a set of states but add paths, so this holds of
every set of states that compiling makes (`numbering_exact`).
-/

namespace ReplaceRules

namespace StateSet

variable {q q' : StateSet} {ps : Patterns} {a : Alphabet}

/-- What a set of states is asked is answered rightly. -/
structure IsNumbering (q : StateSet) (ps : Patterns) : Prop where
  /-- Number 0 is the empty path. -/
  path_zero : q.paths[0]? = some []
  /-- No path has two numbers. -/
  paths_nodup : q.paths.Nodup
  /-- A path is found under its number, and no other path is found. -/
  find?_iff : ∀ path id, q.find? path = some id ↔ q.paths[id]? = some path
  /-- A state knows how much of its path can be written; that and what is pending make up the path. -/
  written_eq : ∀ s ∈ q.states, s.written = ps.written s.path ∧ s.written + s.pending.length = s.path.length
  /-- Of the paths that end a window, the longest is found. -/
  longestSuffix_spec : ∀ window, ∃ path, q.paths[q.longestSuffix window]? = some path ∧ path <:+ window ∧
    ∀ other ∈ q.paths, other <:+ window → other ≠ path → other.length < path.length

/-- A set of states that was made by adding states answers rightly. -/
theorem WellFormed.isNumbering (hw : q.WellFormed ps) : q.IsNumbering ps where
  path_zero := hw.initial
  paths_nodup := hw.nodup
  find?_iff _ _ := hw.find?_eq_some_iff
  written_eq s hs := by
    have heq := hw.written s hs
    have hle : s.written ≤ s.path.length := heq ▸ ps.written_le_length s.path
    refine ⟨heq, ?_⟩
    rw [State.pending, List.length_drop]
    omega
  longestSuffix_spec window := by
    obtain ⟨hlt, hends⟩ := hw.longestSuffix_spec window
    refine ⟨_, q.path_state hlt, hends, ?_⟩
    intro other hother hs hne
    have hsuffix := hw.suffix_longestSuffix hother hs
    have hlength : other.length ≠ (q.state (q.longestSuffix window)).path.length := fun heq => hne (hsuffix.eq_of_length heq)
    exact Nat.lt_of_le_of_ne hsuffix.length_le hlength

/-! ## Adding paths -/

/-- A path that is added keeps its number, or gets the next free one. -/
theorem find?_intern_self (q : StateSet) (ps : Patterns) (path : List Symbol) :
    (q.intern ps path).find? path = some ((q.find? path).getD q.size) := by
  cases hf : q.find? path with
  | some id => exact find?_of_prefix (states_prefix_intern q ps path) hf
  | none =>
    have hplace := (q.find?_eq_findIdx? path).symm.trans hf
    rw [find?_eq_findIdx?, states_intern, if_neg (find?_eq_none_iff.mp hf), List.findIdx?_append, hplace]
    simp [size]

theorem internAll_append (q : StateSet) (ps : Patterns) (l more : List (List Symbol)) :
    q.internAll ps (l ++ more) = (q.internAll ps l).internAll ps more :=
  List.foldl_append

/-- The states that are there stay where they are. -/
theorem states_prefix_internAll (q : StateSet) (ps : Patterns) (l : List (List Symbol)) :
    q.states <+: (q.internAll ps l).states := by
  induction l generalizing q with
  | nil => exact List.prefix_refl _
  | cons path rest ih => exact (states_prefix_intern q ps path).trans (ih _)

/-- The closing does nothing but add paths. -/
theorem Grows.exists_internAll (h : Grows ps a q q') : ∃ more, q' = q.internAll ps more := by
  induction h with
  | start => exact ⟨[], rfl⟩
  | @carry q' s x _ _ _ ih =>
    obtain ⟨more, rfl⟩ := ih
    unfold addCarry
    split
    · next start _ =>
      refine ⟨more ++ [(s.path ++ [x]).drop start], ?_⟩
      rw [internAll_append]
      rfl
    · exact ⟨more, rfl⟩

/-- Whatever paths are added to the initial state, in whatever order and however often, numbers and paths belong together: number 0
is the empty path, no path has two numbers, a path is found under its number, each state knows how much of its path can be written,
which is never more than there is of it, and the path that is found for a window is the longest that ends it. A path gets the next
free number when it is added first, and keeps it; the state with a number stays what it is. The states along the contexts and those
that the closing adds are made in this way. -/
theorem numbering_exact :
    (∀ (ps : Patterns) (shape : Shape) (paths : List (List Symbol)),
      let q := (initial shape).internAll ps paths
      q.IsNumbering ps ∧
      (∀ path, (q.intern ps path).find? path = some ((q.find? path).getD q.size)) ∧
      ∀ more, (∀ (id : Nat) (s : State), q.states[id]? = some s → (q.internAll ps more).states[id]? = some s) ∧
        ∀ path id, q.find? path = some id → (q.internAll ps more).find? path = some id) ∧
    ∀ r : RuleSet, ∃ paths more,
      (Construction.ofRules r).contextStates = (initial r.shape).internAll (.ofRules r) paths ∧
      (Construction.ofRules r).states = ((initial r.shape).internAll (.ofRules r) paths).internAll (.ofRules r) more := by
  refine ⟨?_, ?_⟩
  · intro ps shape paths q
    have hw : q.WellFormed ps := (wellFormed_initial shape ps).internAll paths
    refine ⟨hw.isNumbering, find?_intern_self q ps, ?_⟩
    intro more
    have hprefix := states_prefix_internAll q ps more
    refine ⟨?_, ?_⟩
    · intro id s hs
      obtain ⟨rest, hrest⟩ := hprefix
      rw [← hrest, List.getElem?_append_left (List.getElem?_eq_some_iff.mp hs).1]
      exact hs
    · intro path id hf
      exact find?_of_prefix hprefix hf
  · intro r
    obtain ⟨more, hmore⟩ := (Construction.grows_states r).exists_internAll
    exact ⟨_, more, Construction.contextStates_eq r, hmore⟩

/-- Paths in no order, one of them twice and one that is no part of a pattern. Adding one of them again leaves it number 2, and a new
one gets number 4; in `y z a b` two symbols are pending, as `a` is in a partial match, too. -/
theorem numbering_exact_repeated :
    let q := (initial .dual).internAll (.ofRules .overlapping)
      [[⟨"y"⟩, ⟨"z"⟩, ⟨"a"⟩, ⟨"b"⟩], [⟨"q"⟩], [⟨"b"⟩], [⟨"q"⟩]]
    q.paths = [[], [⟨"y"⟩, ⟨"z"⟩, ⟨"a"⟩, ⟨"b"⟩], [⟨"q"⟩], [⟨"b"⟩]] ∧
      (q.intern (.ofRules .overlapping) [⟨"q"⟩]).find? [⟨"q"⟩] = some 2 ∧
      (q.intern (.ofRules .overlapping) [⟨"z"⟩]).find? [⟨"z"⟩] = some 4 ∧
      (∀ more, (q.internAll (.ofRules .overlapping) more).states[1]? =
        some ⟨[⟨"y"⟩, ⟨"z"⟩, ⟨"a"⟩, ⟨"b"⟩], 2⟩) ∧
      q.longestSuffix [⟨"q"⟩, ⟨"z"⟩, ⟨"a"⟩, ⟨"b"⟩] = 3 ∧
      q.IsNumbering (.ofRules .overlapping) := by
  intro q
  obtain ⟨hnumbering, hintern, hkeeps⟩ := numbering_exact.1 (.ofRules .overlapping) .dual
    [[⟨"y"⟩, ⟨"z"⟩, ⟨"a"⟩, ⟨"b"⟩], [⟨"q"⟩], [⟨"b"⟩], [⟨"q"⟩]]
  have hpaths : q.paths = [[], [⟨"y"⟩, ⟨"z"⟩, ⟨"a"⟩, ⟨"b"⟩], [⟨"q"⟩], [⟨"b"⟩]] := by decide
  refine ⟨hpaths, (hintern _).trans (by decide), (hintern _).trans (by decide), ?_, by decide, hnumbering⟩
  intro more
  exact (hkeeps more).1 1 _ (by decide)

end StateSet

end ReplaceRules
