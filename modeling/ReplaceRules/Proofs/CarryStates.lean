import ReplaceRules.Proofs.Construction

/-!
# Which states there are

The states along the environments are the proper prefixes of the patterns, each once: none is missed, whatever environments and
pairs share, and none is foreign. The closing adds carry states. `State.IsCarry` says what a carry state is: its path goes on
behind a complete occurrence of a pattern, because the focus of the occurrence is still held back.

What holds it back is a partial match that begins later in the path and has its focus earlier. So the two patterns have left
sides of different length, the longer of which is not empty, and the partial match has a right side (`Remembers.exists_focus_lt`).
Main statement: an accepted set of rules has carry states only if its contexts are dual and not all of their left sides have one
length (`states_exact`).
-/

namespace ReplaceRules

/-- A carry state: its path is no proper prefix of a pattern, but begins with a complete pattern, the focus of which is held
back. -/
structure State.IsCarry (ps : Patterns) (s : State) : Prop where
  not_begins : ∀ p ∈ ps.toList, s.path <+: p.symbols → s.path = p.symbols
  exists_pattern : ∃ p ∈ ps.toList, p.symbols <+: s.path ∧ s.written ≤ p.focus ∧ p.focus < s.path.length

theorem length_interleave (l : List Symbol) : (interleave l).length = 2 * l.length - 1 := by
  fun_induction interleave l with
  | case1 => rfl
  | case2 => rfl
  | case3 s t rest ih =>
    simp only [List.length_cons] at ih ⊢
    omega

namespace Patterns

variable {ps : Patterns} {path : List Symbol}

/-- The proper prefixes of patterns. -/
theorem begins_iff : ps.Begins path ↔ ∃ p ∈ ps.toList, path <+: p.symbols ∧ path ≠ p.symbols := by
  refine exists_congr fun p => and_congr_right fun _ => and_congr_right fun hs => ?_
  constructor
  · rintro hl rfl
    exact Nat.lt_irrefl _ hl
  · intro hne
    exact Nat.lt_of_le_of_ne hs.length_le fun hl => hne (hs.eq_of_length hl)

/-- A path that remembers a replacement and is no partial match itself begins with a pattern whose focus is held back by a partial
match that begins later. So this has a shorter left side, and a right side. -/
theorem Remembers.exists_focus_lt (h : ps.Remembers path) (hn : ¬ps.Begins path) :
    ∃ p ∈ ps.toList, p.symbols <+: path ∧ ps.written path ≤ p.focus ∧
      ∃ r ∈ ps.toList, r.focus < p.focus ∧ r.focus + 1 < r.symbols.length := by
  obtain ⟨p, ho, r, hr, i, hl, hi⟩ := h
  obtain ⟨hp, _, hpre⟩ := occurrence?_eq_some ho
  rw [Nat.sub_self, List.drop_zero] at hpre
  have hheld := written_le_of_isLive hr hl
  have hlater : i ≠ 0 := by
    rintro rfl
    rw [List.drop_zero] at hl
    exact hn (begins_of_isLive hr hl)
  obtain ⟨hf, hlen, _⟩ := Pattern.isLive_iff.mp hl
  exact ⟨p, hp, hpre, by omega, r, hr, by omega, by omega⟩

end Patterns

/-- If one context has a left side and another one has a right side, and they have the same shape, the shape is dual. -/
theorem Context.shape_eq_dual {c d : Context} (hc : c.left ≠ []) (hd : d.right ≠ []) (h : c.shape = d.shape) : c.shape = .dual := by
  obtain ⟨left, right⟩ := c
  obtain ⟨left', right'⟩ := d
  cases left <;> cases right <;> cases left' <;> cases right' <;> simp_all [Context.shape]

/-- An accepted set whose patterns have such a path has dual contexts with left sides of different length. Gaps do not matter for
this: they make a longer side longer still, and give an empty side no symbol. -/
theorem RuleSet.Accepted.dual_of_remembers {r : RuleSet} (h : r.Accepted) {path : List Symbol}
    (hm : (Patterns.ofRules r).Remembers path) (hn : ¬(Patterns.ofRules r).Begins path) :
    r.shape = .dual ∧ ∃ c ∈ r.contexts, ∃ d ∈ r.contexts, c.left.length ≠ d.left.length := by
  obtain ⟨p, hp, _, _, p', hp', hfocus, hright⟩ := hm.exists_focus_lt hn
  obtain ⟨c, hc, q, _, rfl⟩ := Patterns.mem_toList_iff.mp hp
  obtain ⟨d, hd, q', _, rfl⟩ := Patterns.mem_toList_iff.mp hp'
  simp only [Pattern.ofPair, List.length_append, List.length_cons] at hfocus hright
  rcases RuleSet.eq_free_or_exists_context hc with rfl | ⟨c, hcr, rfl⟩
  · exact absurd hfocus (Nat.not_lt_zero _)
  rcases RuleSet.eq_free_or_exists_context hd with rfl | ⟨d, hdr, rfl⟩
  · simp [Context.free] at hright
  have hsides : d.left.length < c.left.length ∧ 0 < d.right.length := by
    cases hi : r.inserts <;>
      simp only [hi, Bool.false_eq_true, if_false, if_true, Context.interleaved, length_interleave] at hfocus hright <;> omega
  have hshape : c.shape = d.shape := by rw [h.shape_eq hcr, h.shape_eq hdr]
  have hdual := Context.shape_eq_dual (List.ne_nil_of_length_pos (Nat.zero_lt_of_lt hsides.1))
    (List.ne_nil_of_length_pos hsides.2) hshape
  exact ⟨h.shape_eq hcr ▸ hdual, c, hcr, d, hdr, Nat.ne_of_gt hsides.1⟩

namespace Construction

/-- A state that was added to the states along the environments is a carry state: those are all proper prefixes of patterns, and no
path has two numbers. -/
theorem isCarry_of_append {r : RuleSet} (hr : r.pairs ≠ []) {carries : List State}
    (h : (ofRules r).states.states = (StateSet.ofRules r).states ++ carries) {s : State} (hs : s ∈ carries) :
    (Patterns.ofRules r).Remembers s.path ∧ ¬(Patterns.ofRules r).Begins s.path ∧ s.IsCarry (.ofRules r) := by
  have ht := tracks_states hr
  generalize (ofRules r).states = q at h ht
  have hm : s ∈ q.states := h ▸ List.mem_append_right _ hs
  have hnew : ¬(Patterns.ofRules r).Begins s.path := by
    intro hb
    have hold := (StateSet.mem_paths_ofRules_iff hr).mpr hb
    have hnodup := ht.nodup
    rw [StateSet.paths, h, List.map_append, List.nodup_append] at hnodup
    exact hnodup.2.2 _ hold _ (List.mem_map_of_mem hs) rfl
  have hremembers := (ht.paths_of s.path (List.mem_map_of_mem hm)).resolve_left hnew
  obtain ⟨p, hp, hpre, hheld, _⟩ := hremembers.exists_focus_lt hnew
  refine ⟨hremembers, hnew, ?_, p, hp, hpre, ?_, ?_⟩
  · intro p' hp' hpre'
    by_contra hne
    exact hnew (Patterns.begins_iff.mpr ⟨p', hp', hpre', hne⟩)
  · rw [ht.written s hm]
    exact hheld
  · exact Nat.lt_of_lt_of_le (Pattern.focus_lt_length hp) hpre.length_le

/-- The states along the environments of an accepted set of rules are the proper prefixes of its patterns, each once. The closing
adds states only if the contexts are dual and two of them have left sides of different length, and what it adds are carry
states. -/
theorem states_exact {r : RuleSet} (h : r.Accepted) :
    (∀ path, path ∈ (ofRules r).contextStates.paths ↔ ∃ c ∈ r.environments, ∃ p ∈ r.pairs,
      path <+: c.left ++ p.input :: c.right ∧ path ≠ c.left ++ p.input :: c.right) ∧
    (ofRules r).contextStates.paths.Nodup ∧
    ∃ carries, (ofRules r).states.states = (ofRules r).contextStates.states ++ carries ∧
      (carries ≠ [] → r.shape = .dual ∧ ∃ c ∈ r.contexts, ∃ d ∈ r.contexts, c.left.length ≠ d.left.length) ∧
      ∀ s ∈ carries, s.IsCarry (.ofRules r) := by
  have hne := h.valid.pairs_ne_nil
  obtain ⟨carries, hgrown⟩ := (grows_states r).prefix_states
  have hcarry := fun s (hs : s ∈ carries) => isCarry_of_append hne hgrown.symm hs
  rw [contextStates_eq]
  refine ⟨?_, (StateSet.tracks_ofRules hne).nodup, carries, hgrown.symm, ?_, fun s hs => (hcarry s hs).2.2⟩
  · intro path
    rw [StateSet.mem_paths_ofRules_iff hne, Patterns.begins_iff]
    constructor
    · rintro ⟨p, hp, hpath⟩
      obtain ⟨c, hc, q, hq, rfl⟩ := Patterns.mem_toList_iff.mp hp
      exact ⟨c, hc, q, hq, hpath⟩
    · rintro ⟨c, hc, q, hq, hpath⟩
      exact ⟨_, Patterns.mem_toList_iff.mpr ⟨c, hc, q, hq, rfl⟩, hpath⟩
  · intro hsome
    obtain ⟨s, rest, rfl⟩ := List.exists_cons_of_ne_nil hsome
    obtain ⟨hremembers, hnew, _⟩ := hcarry s List.mem_cons_self
    exact h.dual_of_remembers hremembers hnew

/-- There is one carry state: `y z a b d`, which begins with the pattern of `b` behind `y z a`. -/
theorem states_exact_overlapping :
    (ofRules .overlapping).states.states =
      (ofRules .overlapping).contextStates.states ++ [⟨[⟨"y"⟩, ⟨"z"⟩, ⟨"a"⟩, ⟨"b"⟩, ⟨"d"⟩], 2⟩] ∧
    State.IsCarry (.ofRules .overlapping) ⟨[⟨"y"⟩, ⟨"z"⟩, ⟨"a"⟩, ⟨"b"⟩, ⟨"d"⟩], 2⟩ ∧
    RuleSet.overlapping.shape = .dual ∧ (ofRules .overlapping).contextStates.paths.Nodup := by
  have hstates : (ofRules .overlapping).states.states =
      (ofRules .overlapping).contextStates.states ++ [⟨[⟨"y"⟩, ⟨"z"⟩, ⟨"a"⟩, ⟨"b"⟩, ⟨"d"⟩], 2⟩] := by decide +kernel
  obtain ⟨_, hnodup, carries, hgrown, hdual, hcarry⟩ := states_exact RuleSet.accepted_overlapping
  obtain rfl := List.append_cancel_left (hstates.symm.trans hgrown)
  exact ⟨hstates, hcarry _ List.mem_cons_self, (hdual (List.cons_ne_nil _ _)).1, hnodup⟩

end Construction

end ReplaceRules
