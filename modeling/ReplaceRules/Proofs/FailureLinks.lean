import ReplaceRules.Proofs.Construction

/-!
# Failure links

A matching automaton moves on a symbol to the longest path that it can still be on: the longest path of a state that ends the
path it came from with the symbol appended. `Transition.FailureLink` says this of a transition, and that the transition settles
exactly what the source had not written and the target does not hold back.

A machine is not built that way. Its edges come from walking the environments, before there are carry states, among them
provisional edges back to the start, and from the fallback edges for what is left over; several edges for one state and symbol
compete. Main statement: the table of an accepted set of rules has the failure link for each state and symbol all the same
(`compile_failureLinks`).
-/

namespace ReplaceRules

/-- A transition along the failure link of a state on a symbol. -/
structure Transition.FailureLink (ps : Patterns) (q : StateSet) (source : Nat) (x : Symbol) (t : Transition) : Prop where
  target_lt : t.target < q.size
  /-- The path of the target ends the window, which is the path of the source with the symbol appended. -/
  suffix : (q.state t.target).path <:+ (q.state source).path ++ [x]
  /-- No state has a longer path that ends the window. -/
  longest : ∀ s ∈ q.states, s.path <:+ (q.state source).path ++ [x] → s.path.length ≤ (q.state t.target).path.length
  /-- What the source has not written and the target does not hold back is settled. -/
  settled : ⟨t.output, t.replaces⟩ = ps.settle ((q.state source).path ++ [x]) (q.state source).written
    (((q.state source).path ++ [x]).length - (q.state t.target).pending.length)

/-- A fallback edge is a failure link. -/
theorem Edge.failureLink_fallback {q : StateSet} {ps : Patterns} (hw : q.WellFormed ps) (source : Nat) (x : Symbol) :
    (Edge.fallback ps q source x).transition.FailureLink ps q source x where
  target_lt := hw.longestSuffix_lt _
  suffix := hw.path_longestSuffix_suffix _
  longest _ hs hsuffix := StateSet.length_le_longestSuffix (List.mem_map_of_mem hs) hsuffix
  settled := rfl

namespace Transducer

/-- In the table of a machine the entry for a state and a known symbol is the fallback edge. -/
theorem Realizes.entry_eq {t : Transducer} {ps : Patterns} (h : t.Realizes ps) {source : Nat} (hs : source < t.states.size)
    {x : Symbol} (hx : x ∈ t.alphabet.symbols) :
    ∃ id row, t.alphabet.find? x = some id ∧ t.table.rows[source]? = some row ∧
      row[id]? = some (Edge.fallback ps t.states source x).transition := by
  obtain ⟨id, hid⟩ := Alphabet.exists_find?_of_mem hx
  refine ⟨id, _, hid, by rw [h.table_eq, Table.getElem?_ofFallbacks hs], ?_⟩
  rw [List.getElem?_map, Alphabet.getElem?_of_find? hid, Option.map_some]

/-- The table of an accepted set of rules is the plain table of failure links. An edge along an environment is the fallback edge
for its state and symbol, or ranks below it; so the edges make this table in whatever order they come. -/
theorem compile_failureLinks {r : RuleSet} (h : r.Accepted) :
    ∃ t, compile r = .ok t ∧
      (∀ e ∈ (Construction.ofRules r).along, e = Edge.fallback (.ofRules r) t.states e.source e.input ∨
        e.Below t.states (Edge.fallback (.ofRules r) t.states e.source e.input)) ∧
      (∀ edges : List Edge,
        (∀ e, e ∈ edges ↔ e ∈ (Construction.ofRules r).along ++ (Construction.ofRules r).fallbacks) →
          Table.assemble edges t.states t.alphabet = .ok t.table) ∧
      ∀ source < t.states.size, ∀ x ∈ t.alphabet.symbols, ∃ id row,
        t.alphabet.find? x = some id ∧ t.table.rows[source]? = some row ∧
          row[id]? = some (Edge.fallback (.ofRules r) t.states source x).transition ∧
          t.table.get source id = (Edge.fallback (.ofRules r) t.states source x).transition ∧
          (t.table.get source id).FailureLink (.ofRules r) t.states source x := by
  have hne := h.valid.pairs_ne_nil
  have hcompile := compile_eq_ok hne
  have hr := realizes_ofConstruction h.valid
  have hrank := fun e he => Construction.eq_fallback_or_lt hne (e := e) (List.mem_append_left _ he)
  have hmade := Construction.assemble_eq_ok hne
  generalize Construction.ofRules r = c at hcompile hr hrank hmade ⊢
  refine ⟨_, hcompile, ?_, ?_, ?_⟩
  · intro e he
    exact (hrank e he).imp_right Or.inl
  · intro edges hedges
    rw [hr.table_eq]
    exact hmade edges hedges
  · generalize ofConstruction r c = t at hr
    intro source hs x hx
    obtain ⟨id, row, hid, hrow, hentry⟩ := hr.entry_eq hs hx
    have hget : t.table.get source id = (Edge.fallback (.ofRules r) t.states source x).transition := by
      rw [Table.get, hrow, Option.getD_some, hentry, Option.getD_some]
    refine ⟨id, row, hid, hrow, hentry, hget, ?_⟩
    rw [hget]
    exact Edge.failureLink_fallback hr.tracks.toWellFormed source x

/-- After `y z a b` the symbol `d` completes an occurrence. The edge along its environment leads back to the start and replaces,
but it ranks below the failure link to the carry state, which writes nothing yet. -/
theorem compile_failureLinks_overlapping :
    ∃ t, compile .overlapping = .ok t ∧
      (∃ e ∈ (Construction.ofRules .overlapping).along, e.source = 5 ∧ e.input = ⟨"d"⟩ ∧ e.target = 0 ∧ e.replaces = true) ∧
      ∃ id row, t.alphabet.find? ⟨"d"⟩ = some id ∧ t.table.rows[5]? = some row ∧ row[id]? = some ⟨[], 13, false⟩ := by
  obtain ⟨t, hc, _, _, hentries⟩ := compile_failureLinks RuleSet.accepted_overlapping
  obtain rfl := eq_overlapping_of_compile hc
  obtain ⟨id, row, hid, hrow, hentry, _⟩ := hentries 5 (by decide +kernel) ⟨"d"⟩ (by decide +kernel)
  refine ⟨_, hc, by decide +kernel, id, row, hid, hrow, ?_⟩
  rw [hentry]
  decide +kernel

end Transducer

end ReplaceRules
