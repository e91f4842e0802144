import ReplaceRules.Fallback
import ReplaceRules.Proofs.Precedence

/-!
# The table of fallback edges

`Table.ofFallbacks` is the plain table of a machine: one row for each state with the fallback edge on each symbol.

Main statement: a list of edges that has all fallback edges, and for a state and a symbol no other edge but such that lead to a
shorter path, makes exactly this table (`assemble_eq_ok`). So the table is complete whenever the fallback edges are.
-/

namespace ReplaceRules

namespace Edge

variable {q : StateSet}

/-- A fallback edge leads to a state. -/
theorem fallback_target_lt {ps : Patterns} (hw : q.WellFormed ps) (source : Nat) (x : Symbol) :
    (fallback ps q source x).target < q.size :=
  hw.longestSuffix_lt _

/-- The fallback edges that are added are those on which no edge leads on. -/
theorem mem_fallbacks_iff {ps : Patterns} {a : Alphabet} {along : List Edge} {e : Edge} :
    e ∈ fallbacks ps q a along ↔ ∃ source < q.size, ∃ x ∈ a.symbols,
      (∀ f ∈ along, f.target ≠ 0 → f.source = source → f.input ≠ x) ∧ e = fallback ps q source x := by
  have hfree : ∀ source x, (!((along.filter (·.target ≠ 0)).filter (·.source = source)).any (·.input = x)) = true ↔
      ∀ f ∈ along, f.target ≠ 0 → f.source = source → f.input ≠ x := by
    intro source x
    simp only [Bool.not_eq_true', List.any_eq_false, List.mem_filter, decide_eq_true_eq, and_imp]
  unfold fallbacks
  simp only [List.mem_flatMap, List.mem_range, List.mem_map, List.mem_filter, hfree]
  constructor
  · rintro ⟨source, hs, x, ⟨hx, hf⟩, rfl⟩
    exact ⟨source, hs, x, hx, hf, rfl⟩
  · rintro ⟨source, hs, x, hx, hf, rfl⟩
    exact ⟨source, hs, x, ⟨hx, hf⟩, rfl⟩

end Edge

namespace Table

/-- The table of the fallback edges. -/
def ofFallbacks (ps : Patterns) (q : StateSet) (a : Alphabet) : Table :=
  ⟨(List.range q.size).map fun source => a.symbols.map fun x => (Edge.fallback ps q source x).transition⟩

variable {ps : Patterns} {q : StateSet} {a : Alphabet}

/-- The table has a row for each state, and in each row a transition for each symbol. -/
theorem length_rows_ofFallbacks : (ofFallbacks ps q a).rows.length = q.size := by simp [ofFallbacks]

/-- The row of a state has its fallback edges, in the order of the alphabet. -/
theorem getElem?_ofFallbacks {source : Nat} (h : source < q.size) :
    (ofFallbacks ps q a).rows[source]? = some (a.symbols.map fun x => (Edge.fallback ps q source x).transition) := by
  simp [ofFallbacks, h]

/-- The entry for a state and a symbol is that of the fallback edge. -/
theorem get_ofFallbacks {source : Nat} (h : source < q.size) {id : Nat} {x : Symbol} (hx : a.symbols[id]? = some x) :
    (ofFallbacks ps q a).get source id = (Edge.fallback ps q source x).transition := by
  rw [get, getElem?_ofFallbacks h, Option.getD_some, List.getElem?_map, hx]
  rfl

/-- Edges become the table of the fallback edges if they have all of these, read known symbols only, and otherwise lead to shorter
paths: a fallback edge then ranks above all others for its state and symbol. -/
theorem assembles_ofFallbacks {edges : List Edge} (hknown : ∀ e ∈ edges, e.input ∈ a.symbols)
    (hall : ∀ source < q.size, ∀ x ∈ a.symbols, Edge.fallback ps q source x ∈ edges)
    (hbest : ∀ e ∈ edges, e = Edge.fallback ps q e.source e.input ∨
      (q.state e.target).path.length < (q.state (Edge.fallback ps q e.source e.input).target).path.length) :
    Assembles q a edges (.ok (ofFallbacks ps q a)) := by
  refine .table _ hknown length_rows_ofFallbacks ?_ ?_
  · intro row hr
    obtain ⟨source, _, rfl⟩ := List.mem_map.mp hr
    exact List.length_map _
  · intro source id x hs hx
    have hgreatest : Edge.Greatest q edges source x (Edge.fallback ps q source x) := by
      refine ⟨hall source hs x (List.mem_of_getElem? hx), rfl, rfl, ?_⟩
      rintro f hf rfl rfl hne
      exact Or.inl ((hbest f hf).resolve_left hne)
    refine ⟨_, hgreatest, fun f hf => hgreatest.unique hf, _, getElem?_ofFallbacks hs, ?_⟩
    rw [List.getElem?_map, hx, Option.map_some]

theorem assemble_eq_ok {edges : List Edge} (hn : q.paths.Nodup) (ht : ∀ e ∈ edges, e.target < q.size)
    (hknown : ∀ e ∈ edges, e.input ∈ a.symbols)
    (hall : ∀ source < q.size, ∀ x ∈ a.symbols, Edge.fallback ps q source x ∈ edges)
    (hbest : ∀ e ∈ edges, e = Edge.fallback ps q e.source e.input ∨
      (q.state e.target).path.length < (q.state (Edge.fallback ps q e.source e.input).target).path.length) :
    assemble edges q a = .ok (ofFallbacks ps q a) := by
  rcases (assembles_ofFallbacks hknown hall hbest).agree (fun _ => Iff.rfl) (assembles hn ht) with heq | ⟨_, _, hx, _⟩
  · exact heq
  · nomatch hx

end Table

end ReplaceRules
