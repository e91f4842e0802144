import ReplaceRules.Edge
import ReplaceRules.Proofs.Carry

/-!
# Moves along the environments

Every move of a set of rules runs along a pattern and stops before the pattern is complete (`exists_isOn_of_mem_ofRules`), and
every proper prefix of a pattern is reached by a move that advances (`exists_move_of_begins`). So the states on the way along
the environments are exactly the partial matches.

Main statements: the set of these states tracks the patterns (`tracks_ofRules`); in every set that was grown from it the edge
of a move that advances is the fallback edge for the same state and symbol (`edge_eq_fallback`), and the edge of a provisional
move either is, too, or leads to a shorter path (`edge_eq_fallback_or_lt`).
-/

namespace ReplaceRules

/-! ## The patterns of a set of rules -/

theorem Patterns.mem_toList_iff {ps : Patterns} {p : Pattern} :
    p ∈ ps.toList ↔ ∃ c ∈ ps.environments, ∃ q ∈ ps.pairs, p = Pattern.ofPair c q := by
  simp only [Patterns.toList, List.mem_flatMap, List.mem_map, eq_comm]

/-- A move along a sequence of symbols that stops before the sequence is complete. -/
structure Move.IsOn (m : Move) (symbols : List Symbol) : Prop where
  path_prefix : m.path <+: symbols
  path_lt : m.path.length < symbols.length
  symbol : m.symbol = .wildcard ∨ m.symbol ∈ symbols
  window : m.advances = true → m.window <+: symbols ∧ m.window.length < symbols.length

namespace Move

/-! ## The moves of one environment -/

/-- The moves along a sequence: at each place, one on the wildcard and one that advances. -/
theorem mem_along_iff {path symbols : List Symbol} {m : Move} :
    m ∈ along path symbols ↔ ∃ before s after, symbols = before ++ s :: after ∧
      (m = ⟨path ++ before, .wildcard, false⟩ ∨ m = ⟨path ++ before, s, true⟩) := by
  induction symbols generalizing path with
  | nil => simp [along]
  | cons t rest ih =>
    rw [along, List.mem_cons, List.mem_cons, ih]
    constructor
    · rintro (rfl | rfl | ⟨before, s, after, rfl, hm⟩)
      · exact ⟨[], t, rest, rfl, Or.inl (by rw [List.append_nil])⟩
      · exact ⟨[], t, rest, rfl, Or.inr (by rw [List.append_nil])⟩
      · exact ⟨t :: before, s, after, rfl, by simpa using hm⟩
    · rintro ⟨before, s, after, he, hm⟩
      cases before with
      | nil =>
        obtain ⟨rfl, rfl⟩ := List.cons.inj he
        rw [List.append_nil] at hm
        exact hm.elim Or.inl fun h => Or.inr (Or.inl h)
      | cons b before =>
        obtain ⟨rfl, rfl⟩ := List.cons.inj he
        exact Or.inr (Or.inr ⟨before, s, after, rfl, by simpa using hm⟩)

/-- A move along the middle of a sequence is one along the sequence. -/
theorem isOn_of_mem_along {path symbols rest : List Symbol} (hr : rest ≠ []) {m : Move} (h : m ∈ along path symbols) :
    m.IsOn (path ++ symbols ++ rest) := by
  obtain ⟨before, s, after, rfl, rfl | rfl⟩ := mem_along_iff.mp h
  · refine ⟨?_, by simp, Or.inl rfl, fun h => nomatch h⟩
    simp [List.append_assoc]
  · have hl := List.length_pos_iff.mpr hr
    refine ⟨by simp [List.append_assoc], by simp, Or.inr (by simp), fun _ => ⟨?_, by simp [window]; omega⟩⟩
    simp [window, List.append_assoc]

/-- The moves that read the input of a pair and the right side run along the pattern. -/
theorem isOn_of_mem_throughFocus {path right : List Symbol} {input : Symbol} {m : Move}
    (h : m ∈ throughFocus path input right) : m.IsOn (path ++ input :: right) := by
  rcases List.eq_nil_or_concat right with rfl | ⟨init, last, hr⟩
  · simp only [throughFocus, List.getLast?_nil, List.mem_singleton] at h
    subst h
    exact ⟨List.prefix_append _ _, by simp, Or.inr (by simp), fun h => nomatch h⟩
  · rw [List.concat_eq_append] at hr
    subst hr
    simp only [throughFocus, List.getLast?_concat, List.dropLast_concat, List.mem_append, List.mem_cons, List.not_mem_nil,
      or_false] at h
    have hs : path ++ input :: (init ++ [last]) = path ++ [input] ++ init ++ [last] := by simp
    rcases h with (rfl | h) | rfl | rfl
    · exact ⟨List.prefix_append _ _, by simp, Or.inr (by simp), fun _ => ⟨by simp [window], by simp [window]⟩⟩
    · rw [hs]
      exact isOn_of_mem_along (by simp) h
    · rw [hs]
      exact ⟨List.prefix_append _ _, by simp, Or.inl rfl, fun h => nomatch h⟩
    · rw [hs]
      exact ⟨List.prefix_append _ _, by simp, Or.inr (by simp), fun h => nomatch h⟩

theorem mem_ofContext_iff {pairs : List Pair} {c : Context} {m : Move} :
    m ∈ ofContext pairs c ↔
      m ∈ along [] c.left ∨ m = ⟨c.left, .wildcard, false⟩ ∨ ∃ p ∈ pairs, m ∈ throughFocus c.left p.input c.right := by
  simp [ofContext]

/-- A move of an environment runs along one of its patterns. -/
theorem exists_isOn_of_mem_ofContext {pairs : List Pair} (hp : pairs ≠ []) {c : Context} {m : Move}
    (h : m ∈ ofContext pairs c) : ∃ p ∈ pairs, m.IsOn (Pattern.ofPair c p).symbols := by
  obtain ⟨p, rest, rfl⟩ := List.exists_cons_of_ne_nil hp
  rcases mem_ofContext_iff.mp h with h | rfl | ⟨q, hq, h⟩
  · exact ⟨p, List.mem_cons_self, isOn_of_mem_along (List.cons_ne_nil p.input c.right) h⟩
  · exact ⟨p, List.mem_cons_self, List.prefix_append _ _, by simp [Pattern.ofPair], Or.inl rfl, fun h => nomatch h⟩
  · exact ⟨q, hq, isOn_of_mem_throughFocus h⟩

/-- Every move of a set of rules runs along one of its patterns. -/
theorem exists_isOn_of_mem_ofRules {r : RuleSet} (hr : r.pairs ≠ []) {m : Move} (h : m ∈ ofRules r) :
    ∃ p ∈ (Patterns.ofRules r).toList, m.IsOn p.symbols := by
  obtain ⟨c, hc, h⟩ := List.mem_flatMap.mp h
  obtain ⟨p, hp, h⟩ := exists_isOn_of_mem_ofContext hr h
  exact ⟨_, Patterns.mem_toList_iff.mpr ⟨c, hc, p, hp, rfl⟩, h⟩

/-- A proper prefix of a pattern is reached by a move that advances. -/
theorem exists_move_of_prefix {pairs : List Pair} {c : Context} {p : Pair} (hp : p ∈ pairs) {path : List Symbol} {s : Symbol}
    (h : path ++ [s] <+: (Pattern.ofPair c p).symbols) (hl : (path ++ [s]).length < (Pattern.ofPair c p).symbols.length) :
    ⟨path, s, true⟩ ∈ ofContext pairs c := by
  rw [mem_ofContext_iff]
  simp only [Pattern.ofPair] at h hl
  by_cases hleft : (path ++ [s]).length ≤ c.left.length
  · obtain ⟨after, ha⟩ := List.prefix_of_prefix_length_le h (List.prefix_append _ _) hleft
    exact Or.inl (mem_along_iff.mpr ⟨path, s, after, by rw [← ha]; simp, Or.inr rfl⟩)
  · have hlen : (path ++ [s]).length = path.length + 1 := by rw [List.length_append, List.length_singleton]
    obtain ⟨rest, rfl⟩ : c.left <+: path :=
      List.prefix_of_prefix_length_le (List.prefix_append _ _) ((List.prefix_append path [s]).trans h) (by omega)
    rw [List.append_assoc, List.prefix_append_right_inj] at h
    simp only [List.length_append, List.length_cons, List.length_nil] at hl
    have hright : c.right ≠ [] := by
      intro hn
      rw [hn, List.length_nil] at hl
      omega
    obtain ⟨init, last, hr⟩ := (List.eq_nil_or_concat c.right).resolve_left hright
    rw [List.concat_eq_append] at hr
    refine Or.inr (Or.inr ⟨p, hp, ?_⟩)
    simp only [throughFocus, hr, List.getLast?_concat, List.dropLast_concat]
    refine List.mem_append_left _ (List.mem_cons.mpr ?_)
    cases rest with
    | nil =>
      have hs : s = p.input := (List.cons_prefix_cons.mp h).1
      exact Or.inl (by rw [List.append_nil, hs])
    | cons t rest =>
      obtain ⟨rfl, hrest⟩ := List.cons_prefix_cons.mp h
      rw [hr, List.length_append] at hl
      rw [hr] at hrest
      obtain ⟨after, ha⟩ := List.prefix_of_prefix_length_le hrest (List.prefix_append init [last]) (by simp at hl ⊢; omega)
      exact Or.inr (mem_along_iff.mpr ⟨rest, s, after, by rw [← ha]; simp, Or.inr (by simp)⟩)

/-- Every partial match but the empty one is reached by a move that advances. -/
theorem exists_move_of_begins {r : RuleSet} {path : List Symbol} {s : Symbol} (h : (Patterns.ofRules r).Begins (path ++ [s])) :
    ⟨path, s, true⟩ ∈ ofRules r := by
  obtain ⟨p, hp, hs, hl⟩ := h
  obtain ⟨c, hc, q, hq, rfl⟩ := Patterns.mem_toList_iff.mp hp
  exact List.mem_flatMap.mpr ⟨c, hc, exists_move_of_prefix hq hs hl⟩

end Move

/-! ## The states on the way -/

/-- A set of rules has an environment. -/
theorem RuleSet.environments_ne_nil (r : RuleSet) : r.environments ≠ [] := by
  unfold RuleSet.environments RuleSet.matchingContexts
  cases hc : r.contexts with
  | nil => simp
  | cons c rest =>
    rw [List.isEmpty_cons, if_neg Bool.false_ne_true]
    split <;> simp

/-- The patterns of a set with a pair begin with nothing. -/
theorem Patterns.begins_nil {r : RuleSet} (hr : r.pairs ≠ []) : (Patterns.ofRules r).Begins [] := by
  obtain ⟨p, pairs, hp⟩ := List.exists_cons_of_ne_nil hr
  obtain ⟨c, environments, hc⟩ := List.exists_cons_of_ne_nil r.environments_ne_nil
  refine ⟨Pattern.ofPair c p, Patterns.mem_toList_iff.mpr ⟨c, ?_, p, ?_, rfl⟩, List.nil_prefix,
    List.length_pos_iff.mpr (by simp [Pattern.ofPair])⟩
  · rw [Patterns.ofRules, hc]
    exact List.mem_cons_self
  · rw [Patterns.ofRules, hp]
    exact List.mem_cons_self

/-- A move starts at a partial match. -/
theorem Move.begins_path {r : RuleSet} (hr : r.pairs ≠ []) {m : Move} (h : m ∈ Move.ofRules r) :
    (Patterns.ofRules r).Begins m.path := by
  obtain ⟨p, hp, hm⟩ := Move.exists_isOn_of_mem_ofRules hr h
  exact ⟨p, hp, hm.path_prefix, hm.path_lt⟩

/-- A move that advances leads to a partial match. -/
theorem Move.begins_window {r : RuleSet} (hr : r.pairs ≠ []) {m : Move} (h : m ∈ Move.ofRules r) (ha : m.advances = true) :
    (Patterns.ofRules r).Begins m.window := by
  obtain ⟨p, hp, hm⟩ := Move.exists_isOn_of_mem_ofRules hr h
  exact ⟨p, hp, hm.window ha⟩

/-- The paths on the way along the environments are the partial matches. -/
theorem StateSet.mem_paths_ofRules_iff {r : RuleSet} (hr : r.pairs ≠ []) {path : List Symbol} :
    path ∈ (StateSet.ofRules r).paths ↔ (Patterns.ofRules r).Begins path := by
  rw [StateSet.ofRules, StateSet.mem_paths_internAll]
  constructor
  · rintro (h | h)
    · have hn : path = [] := by simpa [StateSet.initial, StateSet.paths, State.initial] using h
      rw [hn]
      exact Patterns.begins_nil hr
    · obtain ⟨m, hm, rfl⟩ := List.mem_map.mp h
      obtain ⟨hm, ha⟩ := List.mem_filter.mp hm
      exact Move.begins_window hr hm ha
  · intro h
    rcases List.eq_nil_or_concat path with rfl | ⟨init, s, rfl⟩
    · exact Or.inl (StateSet.wellFormed_initial r.shape (.ofRules r)).nil_mem
    · rw [List.concat_eq_append] at h ⊢
      exact Or.inr (List.mem_map.mpr ⟨_, List.mem_filter.mpr ⟨Move.exists_move_of_begins h, rfl⟩, rfl⟩)

/-- The set of the states on the way tracks the patterns. -/
theorem StateSet.tracks_ofRules {r : RuleSet} (hr : r.pairs ≠ []) : (StateSet.ofRules r).Tracks (.ofRules r) where
  toWellFormed := (StateSet.wellFormed_initial r.shape _).internAll _
  begins _ h := (StateSet.mem_paths_ofRules_iff hr).mpr h
  paths_of _ h := Or.inl ((StateSet.mem_paths_ofRules_iff hr).mp h)

/-! ## The edges of moves -/

namespace Move

variable {r : RuleSet} {q : StateSet} {m : Move}

/-- The state in which a move starts. -/
theorem exists_source (hr : r.pairs ≠ []) (hm : m ∈ ofRules r) : ∃ id, (StateSet.ofRules r).find? m.path = some id :=
  StateSet.exists_find?_of_mem ((StateSet.mem_paths_ofRules_iff hr).mpr (begins_path hr hm))

/-- The state to which a move advances. -/
theorem exists_target (hr : r.pairs ≠ []) (hm : m ∈ ofRules r) (ha : m.advances = true) :
    ∃ id, (StateSet.ofRules r).find? m.window = some id :=
  StateSet.exists_find?_of_mem ((StateSet.mem_paths_ofRules_iff hr).mpr (begins_window hr hm ha))

/-- The edges along the environments lie between states. -/
theorem edge_lt (hr : r.pairs ≠ []) (hm : m ∈ ofRules r) :
    (m.edge (.ofRules r) (StateSet.ofRules r)).source < (StateSet.ofRules r).size ∧
      (m.edge (.ofRules r) (StateSet.ofRules r)).target < (StateSet.ofRules r).size := by
  obtain ⟨source, hs⟩ := exists_source hr hm
  have hsource : (m.edge (.ofRules r) (StateSet.ofRules r)).source = source := by simp [edge, hs]
  refine ⟨hsource ▸ StateSet.lt_size_of_find? hs, ?_⟩
  cases ha : m.advances with
  | true =>
    obtain ⟨target, hw⟩ := exists_target hr hm ha
    have htarget : (m.edge (.ofRules r) (StateSet.ofRules r)).target = target := by simp [edge, ha, hw]
    exact htarget ▸ StateSet.lt_size_of_find? hw
  | false =>
    have htarget : (m.edge (.ofRules r) (StateSet.ofRules r)).target = 0 := by simp [edge, ha]
    exact htarget ▸ (StateSet.tracks_ofRules hr).size_pos

/-- The edge of a move that advances is the fallback edge, also after states have been added. -/
theorem edge_eq_fallback (hr : r.pairs ≠ []) (hm : m ∈ ofRules r) (ha : m.advances = true) (ht : q.Tracks (.ofRules r))
    (hq : (StateSet.ofRules r).states <+: q.states) :
    m.edge (.ofRules r) (StateSet.ofRules r) =
      Edge.fallback (.ofRules r) q (m.edge (.ofRules r) (StateSet.ofRules r)).source m.symbol := by
  have ht0 := StateSet.tracks_ofRules hr
  obtain ⟨source, hs⟩ := exists_source hr hm
  obtain ⟨target, hw⟩ := exists_target hr hm ha
  have hsq := StateSet.find?_of_prefix hq hs
  have hwq := StateSet.find?_of_prefix hq hw
  have hlong := ht.longestSuffix_of_find? hwq
  have hstop : q.pendingStart m.window target = ((StateSet.ofRules r).state target).written := by
    rw [← hlong, ht.pendingStart_eq_written, hlong, ht0.written_state (StateSet.lt_size_of_find? hw),
      StateSet.path_state_of_find? hw]
  have hstart : (q.state source).written = ((StateSet.ofRules r).state source).written := by
    rw [StateSet.state_of_prefix hq (StateSet.lt_size_of_find? hs)]
  have hwin : (q.state source).path ++ [m.symbol] = m.window := by rw [StateSet.path_state_of_find? hsq, window]
  simp only [edge, Edge.fallback, ha, hs, hw, Option.getD_some, if_true, hwin, hlong, hstop, hstart]

/-- The edge of a provisional move is the fallback edge if that leads to the start, too; otherwise it leads to a shorter path.
-/
theorem edge_eq_fallback_or_lt (hr : r.pairs ≠ []) (hm : m ∈ ofRules r) (ha : m.advances = false) (ht : q.Tracks (.ofRules r))
    (hq : (StateSet.ofRules r).states <+: q.states) :
    let e := m.edge (.ofRules r) (StateSet.ofRules r)
    let f := Edge.fallback (.ofRules r) q e.source e.input
    e = f ∨ (q.state e.target).path.length < (q.state f.target).path.length := by
  obtain ⟨source, hs⟩ := exists_source hr hm
  have hsq := StateSet.find?_of_prefix hq hs
  have hstart : (q.state source).written = ((StateSet.ofRules r).state source).written := by
    rw [StateSet.state_of_prefix hq (StateSet.lt_size_of_find? hs)]
  have hwin : (q.state source).path ++ [m.symbol] = m.window := by rw [StateSet.path_state_of_find? hsq, window]
  simp only [edge, Edge.fallback, ha, hs, Option.getD_some, Bool.false_eq_true, if_false, hwin, hstart]
  rcases Nat.eq_zero_or_pos (q.state (q.longestSuffix m.window)).path.length with hz | hpos
  · have hlong : q.longestSuffix m.window = 0 :=
      ht.eq_of_path_eq (ht.longestSuffix_lt _) ht.size_pos (by rw [List.eq_nil_of_length_eq_zero hz, ht.path_zero])
    have hstop : q.pendingStart m.window 0 = m.window.length := by
      rw [StateSet.pendingStart, ht.length_pending ht.size_pos, ht.path_zero, List.length_nil, Nat.zero_sub, Nat.sub_zero]
    exact Or.inl (by rw [hlong, hstop])
  · exact Or.inr (by rw [ht.path_zero, List.length_nil]; exact hpos)

end Move

end ReplaceRules
