import ReplaceRules.Proofs.Runs

/-!
# Compiling never fails, and no run misses

`InRange` says of a stage of compiling, and of a run, that everything it looks up is there and that it never subtracts more
than there is. For the closing this is said of every set of states that adding carry states one by one passes through, not
only of the last one.

Main statement: an accepted set of rules is compiled, on the way nothing is out of range, the table has one transition for
each state and symbol, and every run of the machine finds every transition it asks for.
-/

namespace ReplaceRules

/-! ## Sets of states -/

/-- Nothing that is looked up for a window of a set of states is missing, and no subtraction on a window goes below zero. -/
structure StateSet.InRange (q : StateSet) (ps : Patterns) (a : Alphabet) : Prop where
  /-- A state has not written more than its path. -/
  written_le : ∀ s ∈ q.states, s.written ≤ s.path.length
  /-- A window leads to a state that is there. -/
  target_lt : ∀ s ∈ q.states, ∀ x ∈ a.symbols, q.longestSuffix (s.path ++ [x]) < q.size
  /-- The path of that state is not longer than the window. -/
  path_le : ∀ s ∈ q.states, ∀ x ∈ a.symbols,
    (q.state (q.longestSuffix (s.path ++ [x]))).path.length ≤ (s.path ++ [x]).length
  /-- It does not hold back more than the window. -/
  pending_le : ∀ s ∈ q.states, ∀ x ∈ a.symbols,
    (q.state (q.longestSuffix (s.path ++ [x]))).pending.length ≤ (s.path ++ [x]).length
  /-- No edge writes what was written before. -/
  written_le_pendingStart : ∀ s ∈ q.states, ∀ x ∈ a.symbols,
    s.written ≤ q.pendingStart (s.path ++ [x]) (q.longestSuffix (s.path ++ [x]))
  /-- A carry state begins inside the window. -/
  carryStart_le : ∀ s ∈ q.states, ∀ x ∈ a.symbols, ∀ start,
    q.carryStart? ps (s.path ++ [x]) (q.longestSuffix (s.path ++ [x])) = some start → start ≤ (s.path ++ [x]).length

/-- A set of states that tracks patterns stays in range. -/
theorem StateSet.Tracks.inRange {q : StateSet} {ps : Patterns} (ht : q.Tracks ps) (a : Alphabet) : q.InRange ps a where
  written_le s hs := by
    rw [ht.written s hs]
    exact Patterns.written_le_length ps s.path
  target_lt s _ x _ := ht.longestSuffix_lt _
  path_le s _ x _ := (ht.path_longestSuffix_suffix _).length_le
  pending_le s _ x _ := by
    have hle := (ht.path_longestSuffix_suffix (s.path ++ [x])).length_le
    rw [ht.length_pending (ht.longestSuffix_lt _)]
    omega
  written_le_pendingStart s hs x _ := by
    rw [ht.pendingStart_eq_written, ht.written s hs]
    exact Patterns.written_le_written_concat ps s.path x
  carryStart_le s _ x _ start h := by
    have hlt := (StateSet.carryStart?_eq_some h).1
    omega

/-! ## Moves -/

/-- The states of a move are there, and it writes a part of its window that was not written before. -/
def Move.InRange (m : Move) (q : StateSet) : Prop :=
  ∃ source, q.find? m.path = some source ∧
    if m.advances then
      ∃ target, q.find? m.window = some target ∧
        (q.state source).written ≤ (q.state target).written ∧ (q.state target).written ≤ m.window.length
    else (q.state source).written ≤ m.window.length

/-- The moves of a set of rules stay in range. -/
theorem Move.inRange {r : RuleSet} (hr : r.pairs ≠ []) {m : Move} (hm : m ∈ Move.ofRules r) : m.InRange (.ofRules r) := by
  have ht := StateSet.tracks_ofRules hr
  obtain ⟨source, hs⟩ := Move.exists_source hr hm
  have hsource : ((StateSet.ofRules r).state source).written = (Patterns.ofRules r).written m.path := by
    rw [ht.written_state (StateSet.lt_size_of_find? hs), StateSet.path_state_of_find? hs]
  have hstep := Patterns.written_le_written_concat (.ofRules r) m.path m.symbol
  have hwindow := Patterns.written_le_length (.ofRules r) m.window
  refine ⟨source, hs, ?_⟩
  split
  · next ha =>
    obtain ⟨target, hw⟩ := Move.exists_target hr hm ha
    have htarget : ((StateSet.ofRules r).state target).written = (Patterns.ofRules r).written m.window := by
      rw [ht.written_state (StateSet.lt_size_of_find? hw), StateSet.path_state_of_find? hw]
    refine ⟨target, hw, ?_, ?_⟩
    · rw [hsource, htarget]
      exact hstep
    · rw [htarget]
      exact hwindow
  · rw [hsource]
    exact Nat.le_trans hstep hwindow

/-! ## Compiling -/

/-- The stages of compiling a set of rules stay in range, and the closing comes to its end. -/
structure Construction.InRange (c : Construction) (r : RuleSet) : Prop where
  /-- Unknown symbols can be looked up as the wildcard. -/
  wildcard : Symbol.wildcard ∈ c.alphabet.symbols
  /-- So do the moves along the environments. -/
  moves : ∀ m ∈ Move.ofRules r, m.InRange c.contextStates
  /-- So does every set of states that the closing can pass through. -/
  closing : ∀ q, StateSet.Grows c.patterns c.alphabet c.contextStates q → q.InRange c.patterns c.alphabet
  /-- The states are such a set. -/
  grown : StateSet.Grows c.patterns c.alphabet c.contextStates c.states
  /-- The closing ends because a round adds nothing. -/
  ends : c.states.addCarries c.patterns c.alphabet = c.states
  /-- It does not end because the rounds are used up. -/
  rounds : ∀ rounds, c.patterns.closingRounds c.alphabet ≤ rounds →
    c.contextStates.closeWithin c.patterns c.alphabet rounds = c.states
  /-- The edges lie between states and read symbols of the alphabet. -/
  edges : ∀ e ∈ c.along ++ c.fallbacks, e.source < c.states.size ∧ e.target < c.states.size ∧ e.input ∈ c.alphabet.symbols

/-- Compiling a set of rules with a pair stays in range. -/
theorem Construction.inRange {r : RuleSet} (hr : r.pairs ≠ []) : (ofRules r).InRange r where
  wildcard := wildcard_mem_alphabet r
  moves m hm := by
    rw [contextStates_eq]
    exact Move.inRange hr hm
  closing q hg := by
    rw [patterns_eq, contextStates_eq] at hg
    rw [patterns_eq]
    exact (hg.tracks (StateSet.tracks_ofRules hr)).inRange _
  grown := by
    rw [patterns_eq, contextStates_eq]
    exact grows_states r
  ends := by
    rw [patterns_eq]
    exact (closed_states hr).addCarries_eq
  rounds rounds hn := by
    rw [patterns_eq] at hn
    rw [patterns_eq, contextStates_eq, states_eq]
    exact (StateSet.tracks_ofRules hr).closeWithin_eq_close (knows_alphabet r) hn
  edges _ he := ⟨(edge_lt hr he).1, (edge_lt hr he).2, input_mem_alphabet hr he⟩

/-! ## Runs -/

namespace Transducer

/-- A run finds what it asks for: in each step the state has a row, the symbol or the wildcard has a place in it, and the step
ends in a state; the last state has what it owes. -/
structure InRange (t : Transducer) (trace : Trace) : Prop where
  source_lt : ∀ s ∈ trace.steps, s.source < t.table.rows.length
  lookup_lt : ∀ s ∈ trace.steps, ∀ row, t.table.rows[s.source]? = some row → t.alphabet.lookup s.input < row.length
  target_lt : ∀ s ∈ trace.steps, s.target < t.states.size
  finalState_lt : trace.finalState < t.finals.length

variable {t : Transducer} {ps : Patterns}

theorem Realizes.length_rows (h : t.Realizes ps) : t.table.rows.length = t.states.size := by
  rw [h.table_eq, Table.length_rows_ofFallbacks]

/-- Each row has a transition for each symbol, and the transition ends in a state. -/
theorem Realizes.row (h : t.Realizes ps) {row : List Transition} (hr : row ∈ t.table.rows) :
    row.length = t.alphabet.size ∧ ∀ transition ∈ row, transition.target < t.states.size := by
  rw [h.table_eq] at hr
  obtain ⟨source, _, rfl⟩ := List.mem_map.mp hr
  refine ⟨List.length_map _, ?_⟩
  intro transition htr
  obtain ⟨x, _, rfl⟩ := List.mem_map.mp htr
  exact Edge.fallback_target_lt h.tracks.toWellFormed source x

theorem Realizes.length_finals (h : t.Realizes ps) : t.finals.length = t.states.size := by
  rw [h.finals_eq, finalsOf, List.length_map, StateSet.size]

/-- A step from a state of the machine finds its transition and ends in a state. -/
theorem Realizes.step_target_lt (h : t.Realizes ps) {state : Nat} (hs : state < t.states.size) (x : Symbol) :
    (t.step state x).target < t.states.size := by
  rw [h.step_target hs]
  exact h.tracks.longestSuffix_lt _

/-- The steps from a state of the machine run from states to states: by induction along the text. -/
theorem Realizes.steps_lt (h : t.Realizes ps) {state : Nat} (hs : state < t.states.size) (text : List Symbol) :
    ∀ s ∈ t.steps state text, s.source < t.states.size ∧ s.target < t.states.size := by
  induction text generalizing state with
  | nil => exact fun s hm => absurd hm List.not_mem_nil
  | cons x rest ih =>
    intro s hm
    have htarget := h.step_target_lt hs x
    rcases List.mem_cons.mp hm with rfl | hm
    · exact ⟨hs, htarget⟩
    · exact ih htarget s hm

/-- Every run stays in range. -/
theorem Realizes.inRange (h : t.Realizes ps) (input : List Symbol) : t.InRange (t.run input) where
  source_lt s hs := by
    rw [h.length_rows]
    exact (h.steps_lt h.tracks.size_pos _ s hs).1
  lookup_lt s _ row hr := by
    rw [(h.row (List.mem_of_getElem? hr)).1]
    exact Alphabet.lookup_lt h.wildcard_mem s.input
  target_lt s hs := (h.steps_lt h.tracks.size_pos _ s hs).2
  finalState_lt := by
    rw [h.length_finals]
    exact h.reach_lt _

/-- Compiling an accepted set of rules never fails: no edge reads an unknown symbol and no transition is missing. On the way
nothing is out of range; the table has one transition for each state and each symbol, which ends in a state; each state knows
what it owes; and no run, on whatever input, asks for a transition that is not there. -/
theorem compile_total {r : RuleSet} (h : r.Accepted) :
    (Construction.ofRules r).InRange r ∧
      ∃ t, compile r = .ok t ∧
        t.table.rows.length = t.states.size ∧
        (∀ row ∈ t.table.rows, row.length = t.alphabet.size ∧ ∀ transition ∈ row, transition.target < t.states.size) ∧
        t.finals.length = t.states.size ∧
        ∀ input, t.InRange (t.run input) := by
  refine ⟨Construction.inRange h.valid.pairs_ne_nil, _, compile_eq_ok h.valid.pairs_ne_nil, ?_⟩
  have hr := realizes_ofConstruction h.valid
  generalize ofConstruction r (.ofRules r) = t at hr
  exact ⟨hr.length_rows, fun _ => hr.row, hr.length_finals, hr.inRange⟩

/-- The machine has fourteen states, the last of which was added by the closing. -/
theorem compile_total_overlapping :
    (Construction.ofRules .overlapping).InRange .overlapping ∧
      ∃ t, compile .overlapping = .ok t ∧ t.table.rows.length = 14 ∧ ∀ input, t.InRange (t.run input) := by
  obtain ⟨hstages, t, hc, hrows, _, _, hruns⟩ := compile_total RuleSet.accepted_overlapping
  refine ⟨hstages, t, hc, ?_, hruns⟩
  obtain rfl := eq_overlapping_of_compile hc
  exact hrows.trans size_states_overlapping

end Transducer

end ReplaceRules
