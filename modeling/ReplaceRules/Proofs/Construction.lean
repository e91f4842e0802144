import ReplaceRules.Proofs.Closing
import ReplaceRules.Proofs.FallbackTable
import ReplaceRules.Proofs.Moves
import ReplaceRules.Transducer

/-!
# What compiling makes

The stages of compiling put together. The wildcard is foreign to the patterns of a valid set, the alphabet knows every symbol
that an edge reads, the states track the patterns and are closed, and the edges have all fallback edges.

Main statement: compiling a valid set gives a machine (`Transducer.compile_eq_ok`), and this machine realizes the patterns:
its table is the table of the fallback edges of a closed set of states (`Transducer.realizes_ofConstruction`). Everything that
is said of runs is derived from `Realizes`.
-/

namespace ReplaceRules

/-! ## The wildcard and the patterns -/

/-- A symbol that no pattern reads and no pattern writes. -/
structure Patterns.Foreign (ps : Patterns) (x : Symbol) : Prop where
  reads : ∀ p ∈ ps.toList, x ∉ p.symbols
  writes : ∀ p ∈ ps.toList, p.output ≠ x

/-- Gaps add nothing but empty symbols. -/
theorem mem_interleave {s : Symbol} {l : List Symbol} (h : s ∈ interleave l) : s = .empty ∨ s ∈ l := by
  fun_induction interleave l with
  | case1 => exact absurd h List.not_mem_nil
  | case2 t => exact Or.inr h
  | case3 t u rest ih =>
    rcases List.mem_cons.mp h with rfl | h
    · exact Or.inr List.mem_cons_self
    · rcases List.mem_cons.mp h with rfl | h
      · exact Or.inl rfl
      · exact (ih h).imp_right (List.mem_cons_of_mem t)

/-- No environment speaks of the wildcard, also where the contexts have gaps. -/
theorem RuleSet.Valid.wildcard_notMem {r : RuleSet} (h : r.Valid) {c : Context} (hc : c ∈ r.environments) :
    ¬(Symbol.wildcard ∈ c.left ∨ Symbol.wildcard ∈ c.right) := by
  rcases RuleSet.eq_free_or_exists_context hc with rfl | ⟨d, hd, rfl⟩
  · simp [Context.free]
  · have hn := (h.contexts_read d hd).wildcard_notMem
    split
    · have hne : Symbol.wildcard ≠ Symbol.empty := by decide
      rintro (hl | hr)
      · exact hn (Or.inl ((mem_interleave hl).resolve_left hne))
      · exact hn (Or.inr ((mem_interleave hr).resolve_left hne))
    · exact hn

/-- The wildcard is foreign to the patterns of a valid set. -/
theorem RuleSet.Valid.foreign_wildcard {r : RuleSet} (h : r.Valid) : (Patterns.ofRules r).Foreign .wildcard := by
  constructor
  · intro p hp hw
    obtain ⟨c, hc, q, hq, rfl⟩ := Patterns.mem_toList_iff.mp hp
    have hn := h.wildcard_notMem hc
    rcases List.mem_append.mp hw with hl | hw
    · exact hn (Or.inl hl)
    · rcases List.mem_cons.mp hw with hi | hr
      · exact (h.pairs_read q hq).input_ne_wildcard hi.symm
      · exact hn (Or.inr hr)
  · intro p hp
    obtain ⟨c, _, q, hq, rfl⟩ := Patterns.mem_toList_iff.mp hp
    exact (h.pairs_read q hq).output_ne_wildcard

/-- The alphabet of the symbols of patterns has them all. -/
theorem Alphabet.knows_ofSymbols (ps : Patterns) : (ofSymbols ps.symbols).Knows ps := by
  intro p hp s hs
  rw [mem_ofSymbols_iff, Patterns.symbols, mem_sortedSymbols_iff]
  exact Or.inr (List.mem_flatMap.mpr ⟨p, hp, hs⟩)

/-! ## The stages

What the stages are is read off once: where it has to be found out by unfolding, the closing is opened, too.
-/

namespace Construction

variable {r : RuleSet}

/-- The alphabet has all symbols that are read. -/
theorem knows_alphabet (r : RuleSet) : (ofRules r).alphabet.Knows (.ofRules r) := Alphabet.knows_ofSymbols _

theorem wildcard_mem_alphabet (r : RuleSet) : Symbol.wildcard ∈ (ofRules r).alphabet.symbols :=
  Alphabet.mem_ofSymbols_iff.mpr (Or.inl rfl)

theorem patterns_eq (r : RuleSet) : (ofRules r).patterns = .ofRules r := by
  simp only [ofRules]

theorem contextStates_eq (r : RuleSet) : (ofRules r).contextStates = .ofRules r := by
  simp only [ofRules]

/-- The states are those along the environments, closed under carry states. -/
theorem states_eq (r : RuleSet) : (ofRules r).states = (StateSet.ofRules r).close (.ofRules r) (ofRules r).alphabet := by
  simp only [ofRules]

/-- The states are grown from the states on the way along the environments. -/
theorem grows_states (r : RuleSet) :
    StateSet.Grows (.ofRules r) (ofRules r).alphabet (StateSet.ofRules r) (ofRules r).states := by
  rw [states_eq]
  exact StateSet.grows_close _ _ _

/-- The states track the patterns. -/
theorem tracks_states (hr : r.pairs ≠ []) : (ofRules r).states.Tracks (.ofRules r) :=
  (grows_states r).tracks (StateSet.tracks_ofRules hr)

/-- No state needs a carry state that is not there. -/
theorem closed_states (hr : r.pairs ≠ []) : (ofRules r).states.Closed (.ofRules r) (ofRules r).alphabet := by
  rw [states_eq]
  exact (StateSet.tracks_ofRules hr).closed_close (knows_alphabet r)

/-- An edge along the environments is the edge of a move. -/
theorem mem_along_iff {e : Edge} :
    e ∈ (ofRules r).along ↔ ∃ m ∈ Move.ofRules r, e = m.edge (.ofRules r) (StateSet.ofRules r) := by
  simp only [ofRules, List.mem_map, eq_comm]

theorem fallbacks_eq (r : RuleSet) : (ofRules r).fallbacks =
    Edge.fallbacks (.ofRules r) (ofRules r).states (ofRules r).alphabet (ofRules r).along := by
  simp only [ofRules]

/-- Every edge reads a symbol of the alphabet. -/
theorem input_mem_alphabet (hr : r.pairs ≠ []) {e : Edge} (h : e ∈ (ofRules r).along ++ (ofRules r).fallbacks) :
    e.input ∈ (ofRules r).alphabet.symbols := by
  rcases List.mem_append.mp h with h | h
  · obtain ⟨m, hm, rfl⟩ := mem_along_iff.mp h
    obtain ⟨p, hp, hon⟩ := Move.exists_isOn_of_mem_ofRules hr hm
    rcases hon.symbol with hw | hs
    · have hi : (m.edge (.ofRules r) (StateSet.ofRules r)).input = .wildcard := hw
      rw [hi]
      exact wildcard_mem_alphabet r
    · exact knows_alphabet r p hp _ hs
  · rw [fallbacks_eq, Edge.mem_fallbacks_iff] at h
    obtain ⟨source, _, x, hx, _, rfl⟩ := h
    exact hx

/-- Every edge lies between states. -/
theorem edge_lt (hr : r.pairs ≠ []) {e : Edge} (h : e ∈ (ofRules r).along ++ (ofRules r).fallbacks) :
    e.source < (ofRules r).states.size ∧ e.target < (ofRules r).states.size := by
  rcases List.mem_append.mp h with h | h
  · obtain ⟨m, hm, rfl⟩ := mem_along_iff.mp h
    have hle := StateSet.size_le_of_prefix (grows_states r).prefix_states
    obtain ⟨hs, ht⟩ := Move.edge_lt hr hm
    exact ⟨Nat.lt_of_lt_of_le hs hle, Nat.lt_of_lt_of_le ht hle⟩
  · rw [fallbacks_eq, Edge.mem_fallbacks_iff] at h
    obtain ⟨source, hs, x, _, _, rfl⟩ := h
    exact ⟨hs, Edge.fallback_target_lt (tracks_states hr).toWellFormed source x⟩

/-- Every edge is a fallback edge, or leads to a shorter path than the fallback edge for its state and symbol. -/
theorem eq_fallback_or_lt (hr : r.pairs ≠ []) {e : Edge} (h : e ∈ (ofRules r).along ++ (ofRules r).fallbacks) :
    let f := Edge.fallback (.ofRules r) (ofRules r).states e.source e.input
    e = f ∨ ((ofRules r).states.state e.target).path.length < ((ofRules r).states.state f.target).path.length := by
  rcases List.mem_append.mp h with h | h
  · obtain ⟨m, hm, rfl⟩ := mem_along_iff.mp h
    cases ha : m.advances with
    | true => exact Or.inl (Move.edge_eq_fallback hr hm ha (tracks_states hr) (grows_states r).prefix_states)
    | false => exact Move.edge_eq_fallback_or_lt hr hm ha (tracks_states hr) (grows_states r).prefix_states
  · rw [fallbacks_eq, Edge.mem_fallbacks_iff] at h
    obtain ⟨source, _, x, _, _, rfl⟩ := h
    exact Or.inl rfl

/-- The fallback edge for each state and symbol is among the edges: where it was left out, an edge leads on along a context, and
that is the fallback edge. -/
theorem fallback_mem (hr : r.pairs ≠ []) {source : Nat} (hs : source < (ofRules r).states.size) {x : Symbol}
    (hx : x ∈ (ofRules r).alphabet.symbols) :
    Edge.fallback (.ofRules r) (ofRules r).states source x ∈ (ofRules r).along ++ (ofRules r).fallbacks := by
  by_cases hfree : ∀ f ∈ (ofRules r).along, f.target ≠ 0 → f.source = source → f.input ≠ x
  · rw [List.mem_append, fallbacks_eq, Edge.mem_fallbacks_iff]
    exact Or.inr ⟨source, hs, x, hx, hfree, rfl⟩
  · simp only [not_forall, ne_eq, not_not] at hfree
    obtain ⟨f, hf, htarget, hsource, hinput⟩ := hfree
    obtain ⟨m, hm, rfl⟩ := mem_along_iff.mp hf
    cases ha : m.advances with
    | false => exact absurd (by simp [Move.edge, ha]) htarget
    | true =>
      have he := Move.edge_eq_fallback hr hm ha (tracks_states hr) (grows_states r).prefix_states
      have hi : m.symbol = x := hinput
      rw [hsource, hi] at he
      rw [← he]
      exact List.mem_append_left _ hf

/-- The edges make the table of the fallback edges, in whatever order they come. -/
theorem assemble_eq_ok (hr : r.pairs ≠ []) (edges : List Edge)
    (h : ∀ e, e ∈ edges ↔ e ∈ (ofRules r).along ++ (ofRules r).fallbacks) :
    Table.assemble edges (ofRules r).states (ofRules r).alphabet =
      .ok (.ofFallbacks (.ofRules r) (ofRules r).states (ofRules r).alphabet) :=
  Table.assemble_eq_ok (tracks_states hr).nodup (fun e he => (edge_lt hr ((h e).mp he)).2)
    (fun e he => input_mem_alphabet hr ((h e).mp he)) (fun _ hs _ hx => (h _).mpr (fallback_mem hr hs hx))
    fun e he => eq_fallback_or_lt hr ((h e).mp he)

end Construction

/-! ## The machine -/

namespace Transducer

/-- The machine realizes patterns: its states track them and are closed, its alphabet knows their symbols, and its table is
that of the fallback edges. -/
structure Realizes (t : Transducer) (ps : Patterns) : Prop where
  tracks : t.states.Tracks ps
  closed : t.states.Closed ps t.alphabet
  knows : t.alphabet.Knows ps
  wildcard_mem : Symbol.wildcard ∈ t.alphabet.symbols
  foreign : ps.Foreign .wildcard
  table_eq : t.table = .ofFallbacks ps t.states t.alphabet
  finals_eq : t.finals = finalsOf ps t.states

/-- The machine of a set of rules. -/
def ofConstruction (r : RuleSet) (c : Construction) : Transducer where
  rules := r
  states := c.states
  alphabet := c.alphabet
  table := .ofFallbacks c.patterns c.states c.alphabet
  finals := finalsOf c.patterns c.states
  initialOutput := []

/-- Compiling a set of rules with a pair never fails. -/
theorem compile_eq_ok {r : RuleSet} (hr : r.pairs ≠ []) : compile r = .ok (ofConstruction r (.ofRules r)) := by
  have h := Construction.assemble_eq_ok hr _ fun _ => Iff.rfl
  simp only [compile, h]
  rfl

/-- So there is one machine that can be compiled. -/
theorem eq_of_compile {r : RuleSet} {t : Transducer} (h : compile r = .ok t) (hr : r.pairs ≠ []) :
    t = ofConstruction r (.ofRules r) := by
  rw [compile_eq_ok hr, Except.ok.injEq] at h
  exact h.symm

/-- The machine of the rules whose contexts overlap. -/
def overlapping : Transducer := ofConstruction .overlapping (.ofRules .overlapping)

/-- It is what these rules are compiled to. -/
theorem eq_overlapping_of_compile {t : Transducer} (h : compile .overlapping = .ok t) : t = overlapping :=
  eq_of_compile h (List.cons_ne_nil _ _)

/-- It has fourteen states, one more than there are along the environments. -/
theorem size_states_overlapping : overlapping.states.size = 14 := by decide +kernel

/-- The last one is the carry state that remembers `y z a` before `b` and `d`. -/
theorem state_last_overlapping : overlapping.states.state 13 = ⟨[⟨"y"⟩, ⟨"z"⟩, ⟨"a"⟩, ⟨"b"⟩, ⟨"d"⟩], 2⟩ := by decide +kernel

/-- The machine that is compiled realizes the patterns of the rules. -/
theorem realizes_ofConstruction {r : RuleSet} (h : r.Valid) : (ofConstruction r (.ofRules r)).Realizes (.ofRules r) := by
  have ht := Construction.tracks_states h.pairs_ne_nil
  have hc := Construction.closed_states h.pairs_ne_nil
  have hk := Construction.knows_alphabet r
  have hw := Construction.wildcard_mem_alphabet r
  have hp := Construction.patterns_eq r
  generalize Construction.ofRules r = c at ht hc hk hw hp ⊢
  exact ⟨ht, hc, hk, hw, h.foreign_wildcard, by rw [← hp]; rfl, by rw [← hp]; rfl⟩

end Transducer

end ReplaceRules
