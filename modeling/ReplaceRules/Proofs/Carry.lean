import Mathlib.Data.List.Induction
import ReplaceRules.Fallback
import ReplaceRules.Proofs.Paths

/-!
# Windows and carry states

A window is the path of a state with one more symbol. It leads to the state whose path is the longest that ends it, and what
that state holds back is, as long as every partial match is a path, exactly what the window holds back
(`pendingStart_eq_written`).

`Tracks` is the invariant of adding carry states: every partial match is a path, and every path is a partial match or
remembers a replacement. A path that remembers a replacement begins with an occurrence, the one that is found on its focus,
and its end holds that focus back. `Closed` says that no window needs a carry state.

Main statements: in a closed set every prefix of a path is a path (`Closed.mem_of_prefix`), so one symbol more leads from the
longest path that ends a text to the longest path that ends the longer text (`Closed.longestSuffix_concat`); and the state for a
text knows of every replacement in the text that is held back (`Closed.occurs_iff`).
-/

namespace ReplaceRules

namespace Patterns

/-- A path that begins a pattern without completing it. -/
def Begins (ps : Patterns) (path : List Symbol) : Prop :=
  ∃ p ∈ ps.toList, path <+: p.symbols ∧ path.length < p.symbols.length

/-- A path that remembers a replacement: it begins with the occurrence that is found on its focus, and a partial match at its
end holds that focus back. -/
def Remembers (ps : Patterns) (path : List Symbol) : Prop :=
  ∃ p, ps.occurrence? path p.focus = some p ∧ ∃ r ∈ ps.toList, ∃ i, r.isLive (path.drop i) = true ∧ i + r.focus ≤ p.focus

variable {ps : Patterns}

theorem Begins.of_prefix {path longer : List Symbol} (h : ps.Begins longer) (hp : path <+: longer) : ps.Begins path := by
  obtain ⟨p, hm, hs, hl⟩ := h
  exact ⟨p, hm, hp.trans hs, Nat.lt_of_le_of_lt hp.length_le hl⟩

theorem begins_of_isLive {p : Pattern} (hp : p ∈ ps.toList) {path : List Symbol} (h : p.isLive path = true) :
    ps.Begins path := by
  obtain ⟨_, hl, hs⟩ := Pattern.isLive_iff.mp h
  exact ⟨p, hp, hs, hl⟩

/-- A partial match and a path that remembers have symbols of patterns only: the occurrence that is remembered and the partial match
behind it overlap, so together they cover the path. -/
theorem mem_symbols_of_path {path : List Symbol} (h : ps.Begins path ∨ ps.Remembers path) {s : Symbol} (hs : s ∈ path) :
    ∃ p ∈ ps.toList, s ∈ p.symbols := by
  rcases h with ⟨p, hp, hpre, _⟩ | ⟨p, ho, r, hr, i, hl, hi⟩
  · exact ⟨p, hp, hpre.subset hs⟩
  · obtain ⟨hp, _, hpre⟩ := occurrence?_eq_some ho
    obtain ⟨_, _, hrpre⟩ := Pattern.isLive_iff.mp hl
    rw [Nat.sub_self, List.drop_zero] at hpre
    have hf := Pattern.focus_lt_length hp
    have hparts : s ∈ path.take i ∨ s ∈ path.drop i := by rwa [← List.mem_append, List.take_append_drop]
    rcases hparts with hs | hs
    · have ht : path.take i <+: p.symbols :=
        List.prefix_of_prefix_length_le (List.take_prefix i path) hpre (by rw [List.length_take]; omega)
      exact ⟨p, hp, ht.subset hs⟩
    · exact ⟨r, hr, hrpre.subset hs⟩

end Patterns

/-- An alphabet that has the symbols of all patterns. -/
def Alphabet.Knows (a : Alphabet) (ps : Patterns) : Prop := ∀ p ∈ ps.toList, ∀ s ∈ p.symbols, s ∈ a.symbols

namespace StateSet

variable {q : StateSet} {ps : Patterns} {a : Alphabet}

/-! ## What a window holds back -/

/-- A window is cut before the path of the state that it leads to. -/
theorem WellFormed.exists_window_eq (hw : q.WellFormed ps) (window : List Symbol) :
    ∃ before, window = before ++ (q.state (q.longestSuffix window)).path := by
  obtain ⟨before, h⟩ := hw.path_longestSuffix_suffix window
  exact ⟨before, h.symm⟩

/-- The symbols that are held back begin where the state holds its own back. -/
theorem WellFormed.pendingStart_eq (hw : q.WellFormed ps) {before window : List Symbol}
    (h : window = before ++ (q.state (q.longestSuffix window)).path) :
    q.pendingStart window (q.longestSuffix window) =
      before.length + ps.written (q.state (q.longestSuffix window)).path := by
  have hl := congrArg List.length h
  have hle := Patterns.written_le_length ps (q.state (q.longestSuffix window)).path
  rw [List.length_append] at hl
  rw [pendingStart, hw.length_pending (hw.longestSuffix_lt window)]
  omega

/-- Where a carry state is needed, the window begins there with the occurrence that is found on a focus that is held back. -/
theorem carryStart?_eq_some {window : List Symbol} {target start : Nat} (h : q.carryStart? ps window target = some start) :
    start < window.length - (q.state target).path.length ∧
      ∃ position p, q.pendingStart window target ≤ position ∧ position < window.length ∧
        ps.occurrence? window position = some p ∧ start = position - p.focus := by
  have hm := List.min?_mem h
  simp only [List.mem_filter, List.mem_filterMap, List.mem_range'_1, Option.map_eq_some_iff, decide_eq_true_eq] at hm
  obtain ⟨⟨position, hr, p, ho, hs⟩, hlt⟩ := hm
  exact ⟨hlt, position, p, hr.1, by omega, ho, hs.symm⟩

/-- Where no carry state is needed, the occurrences that are found on what is held back lie inside the path. -/
theorem carryStart?_eq_none {window : List Symbol} {target : Nat} (h : q.carryStart? ps window target = none)
    {position : Nat} (hp : q.pendingStart window target ≤ position) (hl : position < window.length) {p : Pattern}
    (ho : ps.occurrence? window position = some p) : window.length - (q.state target).path.length ≤ position - p.focus := by
  rw [carryStart?, List.min?_eq_none_iff, List.filter_eq_nil_iff] at h
  have hm := h (position - p.focus)
  simp only [List.mem_filterMap, List.mem_range'_1, Option.map_eq_some_iff, decide_eq_true_eq, Nat.not_lt] at hm
  exact hm ⟨position, ⟨hp, by omega⟩, p, ho, rfl⟩

/-- A carry state that is needed is a new one, and it remembers a replacement: the occurrence that is found in the window is found in
the part that begins with it. -/
theorem WellFormed.remembers_of_carryStart? (hw : q.WellFormed ps) {window : List Symbol} {start : Nat}
    (h : q.carryStart? ps window (q.longestSuffix window) = some start) :
    window.drop start ∉ q.paths ∧ ps.Remembers (window.drop start) := by
  obtain ⟨hlt, position, p, hpos, hposl, ho, hs⟩ := carryStart?_eq_some h
  obtain ⟨before, hb⟩ := hw.exists_window_eq window
  have hps := hw.pendingStart_eq hb
  have hocc := (Patterns.occurrence?_eq_some ho).2
  have hf := hocc.1
  generalize hv : (q.state (q.longestSuffix window)).path = v at *
  have hwl : window.length = before.length + v.length := by rw [hb, List.length_append]
  refine ⟨?_, p, ?_, ?_⟩
  · intro hm
    have := length_le_longestSuffix hm (List.drop_suffix start window)
    rw [hv, List.length_drop] at this
    omega
  · have hst : (window.take start).length = start := by rw [List.length_take]; omega
    have he : (window.take start).length + p.focus = position := by omega
    apply Patterns.occurrence?_of_append (window.take start) []
    · rw [List.append_nil, List.take_append_drop, he]
      exact ho
    · rw [← Pattern.occursAt_append_left (window.take start) _ (Nat.le_refl _), List.take_append_drop, he]
      exact hocc
  · have hheld : ps.written v < v.length := by omega
    obtain ⟨r, hr, i, hl, hri⟩ := Patterns.exists_isLive_of_written_lt hheld
    refine ⟨r, hr, before.length - start + i, ?_, by omega⟩
    have hd : start + (before.length - start + i) = before.length + i := by omega
    rwa [List.drop_drop, hd, hb, List.drop_length_add_append]

/-! ## The invariant of adding carry states -/

/-- Every partial match is a path, and every path is a partial match or remembers a replacement. -/
structure Tracks (q : StateSet) (ps : Patterns) : Prop extends q.WellFormed ps where
  begins : ∀ path, ps.Begins path → path ∈ q.paths
  paths_of : ∀ path ∈ q.paths, ps.Begins path ∨ ps.Remembers path

/-- Adding the carry state that a window needs keeps the invariant. -/
theorem Tracks.addCarry (ht : q.Tracks ps) (window : List Symbol) : (q.addCarry ps window).Tracks ps := by
  unfold StateSet.addCarry
  split
  · next start h =>
    obtain ⟨_, hr⟩ := ht.remembers_of_carryStart? h
    refine ⟨ht.intern _, ?_, ?_⟩
    · intro path hp
      exact mem_paths_intern.mpr (Or.inl (ht.begins path hp))
    · intro path hp
      rcases mem_paths_intern.mp hp with hp | rfl
      · exact ht.paths_of path hp
      · exact Or.inr hr
  · exact ht

/-- Every partial match at the end of a window lies in the path of the state that the window leads to. -/
theorem Tracks.le_of_begins (ht : q.Tracks ps) {before window : List Symbol}
    (h : window = before ++ (q.state (q.longestSuffix window)).path) {i : Nat} (hb : ps.Begins (window.drop i)) :
    before.length ≤ i := by
  have hle := length_le_longestSuffix (ht.begins _ hb) (List.drop_suffix i window)
  have hl := congrArg List.length h
  rw [List.length_append] at hl
  rw [List.length_drop] at hle
  omega

/-- What a window holds back, the path of the state that it leads to holds back. -/
theorem Tracks.written_eq (ht : q.Tracks ps) {before window : List Symbol}
    (h : window = before ++ (q.state (q.longestSuffix window)).path) :
    ps.written window = before.length + ps.written (q.state (q.longestSuffix window)).path := by
  rw [← Patterns.written_append, ← h]
  intro p hp i hi
  rw [← h] at hi
  exact ht.le_of_begins h (Patterns.begins_of_isLive hp hi)

theorem Tracks.pendingStart_eq_written (ht : q.Tracks ps) (window : List Symbol) :
    q.pendingStart window (q.longestSuffix window) = ps.written window := by
  obtain ⟨before, h⟩ := ht.exists_window_eq window
  rw [ht.pendingStart_eq h, ht.written_eq h]

/-- The state that a window leads to holds back what the window holds back. -/
theorem Tracks.pending_longestSuffix (ht : q.Tracks ps) (window : List Symbol) :
    (q.state (q.longestSuffix window)).pending = window.drop (ps.written window) := by
  obtain ⟨before, hb⟩ := ht.exists_window_eq window
  rw [State.pending, ht.written_state (ht.longestSuffix_lt window), ht.written_eq hb]
  generalize (q.state (q.longestSuffix window)).path = path at hb
  rw [hb, List.drop_length_add_append]

/-! ## Closed sets -/

/-- No window of a state and a symbol needs a carry state. -/
def Closed (q : StateSet) (ps : Patterns) (a : Alphabet) : Prop :=
  ∀ s ∈ q.states, ∀ x ∈ a.symbols, q.carryStart? ps (s.path ++ [x]) (q.longestSuffix (s.path ++ [x])) = none

/-- No path of a closed set needs a carry state on a symbol of the alphabet. -/
theorem Closed.carryStart?_eq_none (hc : q.Closed ps a) {path : List Symbol} (hp : path ∈ q.paths) {x : Symbol}
    (hx : x ∈ a.symbols) : q.carryStart? ps (path ++ [x]) (q.longestSuffix (path ++ [x])) = none := by
  obtain ⟨s, hs, rfl⟩ := List.mem_map.mp hp
  exact hc s hs x hx

/-- The symbols of paths are known. -/
theorem Tracks.mem_symbols (ht : q.Tracks ps) (ha : a.Knows ps) {path : List Symbol} (hp : path ∈ q.paths) {s : Symbol}
    (hs : s ∈ path) : s ∈ a.symbols := by
  obtain ⟨p, hm, hps⟩ := Patterns.mem_symbols_of_path (ht.paths_of path hp) hs
  exact ha p hm s hps

/-- A prefix of a path that remembers a replacement, one symbol longer than a path and long enough to hold the occurrence, is
a path: the same occurrence is found in it, and its focus is held back already. -/
theorem Closed.take_succ_mem (hc : q.Closed ps a) (ht : q.Tracks ps) {path : List Symbol} {p r : Pattern} {i n : Nat}
    (ho : ps.occurrence? path p.focus = some p) (hr : r ∈ ps.toList) (hl : r.isLive (path.drop i) = true)
    (hi : i + r.focus ≤ p.focus) (hn : n < path.length) (hlong : p.symbols.length ≤ n + 1) (hx : path[n] ∈ a.symbols)
    (hm : path.take n ∈ q.paths) : path.take (n + 1) ∈ q.paths := by
  obtain ⟨hp, hocc⟩ := Patterns.occurrence?_eq_some ho
  have hpre : p.symbols <+: path := by simpa using hocc.2
  have hfocus := Pattern.focus_lt_length hp
  have hwin : path.take n ++ [path[n]] = path.take (n + 1) := by simp
  have hlen : (path.take (n + 1)).length = n + 1 := by rw [List.length_take]; omega
  have hnone := hc.carryStart?_eq_none hm hx
  rw [hwin] at hnone
  have hlive : r.isLive ((path.take (n + 1)).drop i) = true :=
    Pattern.isLive_of_prefix hl ((List.take_prefix _ _).drop i) (by rw [List.length_drop]; omega)
  have hheld := Patterns.written_le_of_isLive hr hlive
  have hfound : ps.occurrence? (path.take (n + 1)) p.focus = some p := by
    apply Patterns.occurrence?_of_append [] (path.drop (n + 1))
    · simpa using ho
    · refine ⟨Nat.le_refl _, ?_⟩
      rw [Nat.sub_self, List.drop_zero]
      exact List.prefix_of_prefix_length_le hpre (List.take_prefix _ _) (by omega)
  have hle := StateSet.carryStart?_eq_none hnone (by rw [ht.pendingStart_eq_written]; omega) (by omega) hfound
  have hall := (ht.path_longestSuffix_suffix (path.take (n + 1))).eq_of_length_le (by omega)
  rw [← hall]
  exact q.path_mem_paths (ht.longestSuffix_lt _)

/-- In a closed set every prefix of a path is a path. A prefix that is too short to hold the remembered occurrence is a partial
match; the longer ones are added one after the other. -/
theorem Closed.mem_of_prefix (hc : q.Closed ps a) (ht : q.Tracks ps) (ha : a.Knows ps) {path shorter : List Symbol}
    (hp : path ∈ q.paths) (hs : shorter <+: path) : shorter ∈ q.paths := by
  rcases ht.paths_of path hp with hb | ⟨p, ho, r, hr, i, hl, hi⟩
  · exact ht.begins shorter (hb.of_prefix hs)
  · have hocc := Patterns.occurrence?_eq_some ho
    have hpre : p.symbols <+: path := by simpa using hocc.2.2
    have htake : ∀ n, n ≤ path.length → path.take n ∈ q.paths := by
      intro n
      induction n with
      | zero =>
        intro _
        rw [List.take_zero]
        exact ht.nil_mem
      | succ n ih =>
        intro hn
        by_cases hshort : n + 1 < p.symbols.length
        · have htp : path.take (n + 1) <+: p.symbols :=
            List.prefix_of_prefix_length_le (List.take_prefix _ _) hpre (by rw [List.length_take]; omega)
          exact ht.begins _ ⟨p, hocc.1, htp, by rw [List.length_take]; omega⟩
        · have hx := ht.mem_symbols ha hp (List.getElem_mem hn)
          exact hc.take_succ_mem ht ho hr hl hi hn (by omega) hx (ih (by omega))
    rw [List.prefix_iff_eq_take.mp hs]
    exact htake _ hs.length_le

/-- One symbol more leads from the longest path that ends a text to the longest path that ends the longer text. -/
theorem Closed.longestSuffix_concat (hc : q.Closed ps a) (ht : q.Tracks ps) (ha : a.Knows ps) (text : List Symbol) (x : Symbol) :
    q.longestSuffix (text ++ [x]) = q.longestSuffix ((q.state (q.longestSuffix text)).path ++ [x]) := by
  have hlt := ht.longestSuffix_lt (text ++ [x])
  apply ht.longestSuffix_eq
  · rcases List.suffix_concat_iff.mp (ht.path_longestSuffix_suffix (text ++ [x])) with hn | ⟨path, he, hs⟩
    · rw [hn]
      exact List.nil_suffix
    · have hm := q.path_mem_paths hlt
      rw [he] at hm ⊢
      have hp := hc.mem_of_prefix ht ha hm (List.prefix_append path [x])
      obtain ⟨before, hb⟩ := ht.suffix_longestSuffix hp hs
      exact ⟨before, by rw [← hb, List.append_assoc]⟩
  · have hs := ht.path_longestSuffix_suffix ((q.state (q.longestSuffix text)).path ++ [x])
    obtain ⟨before, hb⟩ := ht.path_longestSuffix_suffix text
    refine hs.trans ⟨before, ?_⟩
    rw [← List.append_assoc, hb]

/-! ## What the state for a text remembers -/

/-- The state for a text knows of every occurrence in the text whose focus is held back. -/
def Recalls (q : StateSet) (ps : Patterns) (text : List Symbol) : Prop :=
  ∀ before, text = before ++ (q.state (q.longestSuffix text)).path → ∀ n,
    ps.written (q.state (q.longestSuffix text)).path ≤ n → ps.Occurs text (before.length + n) →
      ps.Occurs (q.state (q.longestSuffix text)).path n

/-- If the state for a text recalls its occurrences, its window recalls those of the longer text: an occurrence that ends with
the new symbol is a partial match before it, so it lies in the window. -/
theorem Tracks.occurs_window (ht : q.Tracks ps) {before text : List Symbol} {x : Symbol} (hr : q.Recalls ps text)
    (h : text = before ++ (q.state (q.longestSuffix text)).path) {n : Nat}
    (hn : ps.written (q.state (q.longestSuffix text)).path ≤ n) (ho : ps.Occurs (text ++ [x]) (before.length + n)) :
    ps.Occurs ((q.state (q.longestSuffix text)).path ++ [x]) n := by
  obtain ⟨p, hp, ho⟩ := ho
  have hf := Pattern.focus_lt_length hp
  by_cases he : before.length + n + p.symbols.length ≤ text.length + p.focus
  · obtain ⟨r, hrm, hro⟩ := hr before h n hn ⟨p, hp, ho.of_append_right he⟩
    exact ⟨r, hrm, hro.append_right [x]⟩
  · have hend := ho.end_le (List.ne_nil_of_length_pos (by omega))
    rw [List.length_append, List.length_singleton] at hend
    have hfl := ho.1
    have hb : ps.Begins (text.drop (before.length + n - p.focus)) := by
      refine ⟨p, hp, ?_, by rw [List.length_drop]; omega⟩
      refine List.prefix_of_prefix_length_le ((List.prefix_append text [x]).drop _) ho.2 ?_
      rw [List.length_drop]
      omega
    have hle := ht.le_of_begins h hb
    refine ⟨p, hp, ?_⟩
    rw [h, List.append_assoc] at ho
    exact (Pattern.occursAt_append_left before _ (by omega)).mp ho

/-- In a closed set a window forgets no occurrence whose focus is held back. -/
theorem Closed.occurs_of_window (hc : q.Closed ps a) (ht : q.Tracks ps) {path before : List Symbol} (hp : path ∈ q.paths)
    {x : Symbol} (hx : x ∈ a.symbols) (h : path ++ [x] = before ++ (q.state (q.longestSuffix (path ++ [x]))).path) {n : Nat}
    (hn : ps.written (q.state (q.longestSuffix (path ++ [x]))).path ≤ n) (ho : ps.Occurs (path ++ [x]) (before.length + n)) :
    ps.Occurs (q.state (q.longestSuffix (path ++ [x]))).path n := by
  obtain ⟨p, hfound⟩ := Option.isSome_iff_exists.mp (Patterns.isSome_occurrence?_iff.mpr ho)
  obtain ⟨hm, hocc⟩ := Patterns.occurrence?_eq_some hfound
  have hlt := hocc.lt_length (Pattern.focus_lt_length hm)
  have hheld := ht.pendingStart_eq h
  have hle := StateSet.carryStart?_eq_none (hc.carryStart?_eq_none hp hx) (by omega) hlt hfound
  have hl := (congrArg List.length h).trans List.length_append
  have hf := hocc.1
  refine ⟨p, hm, ?_⟩
  rw [h] at hocc
  exact (Pattern.occursAt_append_left before _ (by omega)).mp hocc

/-- The state for a text recalls its occurrences: by induction along the text, through the window of each symbol. -/
theorem Closed.recalls (hc : q.Closed ps a) (ht : q.Tracks ps) (ha : a.Knows ps) (text : List Symbol) : q.Recalls ps text := by
  induction text using List.reverseRecOn with
  | nil =>
    rintro before _ n _ ⟨p, hp, ho⟩
    exact absurd (ho.lt_length (Pattern.focus_lt_length hp)) (Nat.not_lt_zero _)
  | append_singleton text x ih =>
    intro before hb n hn ho
    obtain ⟨first, hfirst⟩ := ht.exists_window_eq text
    have hstep := hc.longestSuffix_concat ht ha text x
    have hx : x ∈ a.symbols := by
      rcases List.suffix_concat_iff.mp (ht.path_longestSuffix_suffix (text ++ [x])) with hnil | ⟨path, he, _⟩
      · obtain ⟨p, hp, ho⟩ := ho
        have hlt := ho.lt_length (Pattern.focus_lt_length hp)
        rw [hb, hnil, List.append_nil] at hlt
        omega
      · have hm := q.path_mem_paths (ht.longestSuffix_lt (text ++ [x]))
        exact ht.mem_symbols ha hm (by rw [he]; simp)
    have hheld : ps.written text ≤ before.length + n := by
      have h1 := Patterns.written_le_written_concat ps text x
      have h2 := ht.written_eq hb
      omega
    have hfheld := ht.written_eq hfirst
    rw [hstep] at hb hn ⊢
    obtain ⟨second, hsecond⟩ := ht.exists_window_eq ((q.state (q.longestSuffix text)).path ++ [x])
    have hcut : before.length = first.length + second.length := by
      have h1 := (congrArg List.length hb).trans List.length_append
      have h2 := (congrArg List.length hfirst).trans List.length_append
      have h3 := (congrArg List.length hsecond).trans List.length_append
      simp only [List.length_append, List.length_singleton] at h1 h3
      omega
    rw [hcut, Nat.add_assoc] at ho
    exact hc.occurs_of_window ht (q.path_mem_paths (ht.longestSuffix_lt text)) hx hsecond hn
      (ht.occurs_window ih hfirst (by omega) ho)

/-- On what is held back the occurrences in a text are exactly those in the path of its state. -/
theorem Closed.occurs_iff (hc : q.Closed ps a) (ht : q.Tracks ps) (ha : a.Knows ps) {before text : List Symbol}
    (h : text = before ++ (q.state (q.longestSuffix text)).path) {n : Nat}
    (hn : ps.written (q.state (q.longestSuffix text)).path ≤ n) :
    ps.Occurs text (before.length + n) ↔ ps.Occurs (q.state (q.longestSuffix text)).path n := by
  constructor
  · exact hc.recalls ht ha text before h n hn
  · rintro ⟨p, hp, ho⟩
    rw [h]
    exact ⟨p, hp, ho.append_left before⟩

/-- On what is held back the occurrences after one more symbol are exactly those in the window. -/
theorem Closed.occurs_concat_iff (hc : q.Closed ps a) (ht : q.Tracks ps) (ha : a.Knows ps) {before text : List Symbol}
    {x : Symbol} (h : text = before ++ (q.state (q.longestSuffix text)).path) {n : Nat}
    (hn : ps.written (q.state (q.longestSuffix text)).path ≤ n) :
    ps.Occurs (text ++ [x]) (before.length + n) ↔ ps.Occurs ((q.state (q.longestSuffix text)).path ++ [x]) n := by
  constructor
  · exact ht.occurs_window (hc.recalls ht ha text) h hn
  · rintro ⟨p, hp, ho⟩
    rw [h, List.append_assoc]
    exact ⟨p, hp, ho.append_left before⟩

end StateSet

end ReplaceRules
