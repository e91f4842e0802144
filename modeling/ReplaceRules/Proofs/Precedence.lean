import ReplaceRules.Proofs.Accepted
import ReplaceRules.Proofs.Alphabets
import ReplaceRules.Proofs.Paths
import ReplaceRules.Table

/-!
# Which of several edges is kept

Edges for one state and symbol are told apart by their rank. `Below` writes the order of ranks out: the length of the path in
which an edge ends, whether it replaces, the path, and the output. Where no path has two numbers, two edges for one state and
symbol that rank the same are the same edge (`eq_of_compareRank`), so of the edges for a state and a symbol one ranks above all
others.

`Assembles` says what becomes of a list of edges: the error for the first edge that reads an unknown symbol, the error for the
first state and symbol without an edge, or the table in which each transition is that of the edge of highest rank.

Main statement: a list of edges between states becomes just that (`assembles`), so the order of the edges and their repetitions
do not matter (`assemble_precedence`).
-/

namespace ReplaceRules

namespace Edge

/-- An edge ranks below another: it ends in a shorter path, or else it is the other that replaces, or else its path or its output
comes before. -/
def Below (q : StateSet) (f e : Edge) : Prop :=
  let path := (q.state f.target).path
  let higher := (q.state e.target).path
  path.length < higher.length ∨ path.length = higher.length ∧
    ((f.replaces = false ∧ e.replaces = true) ∨ f.replaces = e.replaces ∧
      (compare path higher = .lt ∨ path = higher ∧ compare f.output e.output = .lt))

/-- The edge that ranks above all others for a state and a symbol. -/
structure Greatest (q : StateSet) (edges : List Edge) (source : Nat) (x : Symbol) (e : Edge) : Prop where
  mem : e ∈ edges
  source_eq : e.source = source
  input_eq : e.input = x
  below : ∀ f ∈ edges, f.source = source → f.input = x → f ≠ e → f.Below q e

/-- Some edge is for a state and a symbol. -/
def Covers (edges : List Edge) (source : Nat) (x : Symbol) : Prop := ∃ e ∈ edges, e.source = source ∧ e.input = x

/-- What an edge puts into the table. -/
def transition (e : Edge) : Transition := ⟨e.output, e.target, e.replaces⟩

variable {q : StateSet} {edges edges' : List Edge} {source : Nat} {x : Symbol} {e f : Edge}

/-! ## The order of ranks -/

instance (q : StateSet) : Std.TransCmp (compareRank q) :=
  inferInstanceAs (Std.TransCmp (compareLex (compareLex (compareLex (compareOn fun e => (rank q e).1)
    (compareOn fun e => (rank q e).2.1)) (compareOn fun e => (rank q e).2.2.1)) (compareOn fun e => (rank q e).2.2.2)))

/-- An edge is lower in the order of ranks if it ranks below. -/
theorem compareRank_eq_lt_iff : f.compareRank q e = .lt ↔ f.Below q e := by
  have hb : compare f.replaces e.replaces = .lt ↔ f.replaces = false ∧ e.replaces = true := by
    cases f.replaces <;> cases e.replaces <;> decide
  simp only [compareRank, rank, Below, Ordering.then_eq_lt, Ordering.then_eq_eq, Nat.compare_eq_lt,
    Std.LawfulEqOrd.compare_eq_iff_eq, hb]
  tauto

/-- Edges for one state and symbol that rank the same are the same edge, as no path has two numbers. -/
theorem eq_of_compareRank (hn : q.paths.Nodup) (hs : f.source = e.source) (hi : f.input = e.input) (hf : f.target < q.size)
    (he : e.target < q.size) (h : f.compareRank q e = .eq) : f = e := by
  simp only [compareRank, rank, Ordering.then_eq_eq, Std.LawfulEqOrd.compare_eq_iff_eq] at h
  obtain ⟨⟨⟨_, hr⟩, hp⟩, ho⟩ := h
  have ht := StateSet.eq_of_path_eq hn hf he hp
  cases f
  cases e
  simp only [Edge.mk.injEq]
  exact ⟨hs, hi, ho, ht, hr⟩

/-! ## The edge of highest rank -/

/-- Going through edges keeps one of them, and none ranks above it. -/
theorem foldl_compareRank_spec (best : Edge) (rest : List Edge) :
    let e := rest.foldl (fun best f => if f.compareRank q best = .gt then f else best) best
    e ∈ best :: rest ∧ ∀ f ∈ best :: rest, (f.compareRank q e).isLE = true := by
  induction rest generalizing best with
  | nil => simp [Std.ReflCmp.isLE_rfl]
  | cons f rest ih =>
    rw [List.foldl_cons]
    split
    · next hgt =>
      obtain ⟨hm, hle⟩ := ih f
      refine ⟨List.mem_cons_of_mem _ hm, ?_⟩
      intro g hg
      rcases List.mem_cons.mp hg with rfl | hg
      · have hlt : (g.compareRank q f).isLE = true := by
          rw [Std.OrientedCmp.lt_of_gt hgt]
          rfl
        exact Std.TransCmp.isLE_trans hlt (hle f List.mem_cons_self)
      · exact hle g hg
    · next hgt =>
      obtain ⟨hm, hle⟩ := ih best
      refine ⟨?_, ?_⟩
      · rcases List.mem_cons.mp hm with hb | hm
        · rw [hb]
          exact List.mem_cons_self
        · exact List.mem_cons_of_mem _ (List.mem_cons_of_mem _ hm)
      · intro g hg
        rcases List.mem_cons.mp hg with rfl | hg
        · exact hle g List.mem_cons_self
        · rcases List.mem_cons.mp hg with rfl | hg
          · exact Std.TransCmp.isLE_trans (Ordering.isLE_iff_ne_gt.mpr hgt) (hle best List.mem_cons_self)
          · exact hle g (List.mem_cons_of_mem _ hg)

/-- Among some edges there is one of highest rank. -/
theorem exists_highest? {l : List Edge} (h : l ≠ []) :
    ∃ e, highest? q l = some e ∧ e ∈ l ∧ ∀ f ∈ l, (f.compareRank q e).isLE = true := by
  obtain ⟨best, rest, rfl⟩ := List.exists_cons_of_ne_nil h
  exact ⟨_, rfl, foldl_compareRank_spec best rest⟩

/-- No two edges rank above each other. -/
theorem Below.asymm (h : f.Below q e) : ¬e.Below q f := by
  rw [← compareRank_eq_lt_iff] at h ⊢
  rw [Std.OrientedCmp.gt_of_lt h]
  simp

/-- Only one edge ranks above all others. -/
theorem Greatest.unique (he : Greatest q edges source x e) (hf : Greatest q edges source x f) : f = e := by
  by_contra hne
  have hfe := he.below f hf.mem hf.source_eq hf.input_eq hne
  have hef := hf.below e he.mem he.source_eq he.input_eq fun h => hne h.symm
  exact hfe.asymm hef

/-- Lists with the same edges have the same edge of highest rank. -/
theorem Greatest.congr (h : ∀ e, e ∈ edges' ↔ e ∈ edges) (he : Greatest q edges source x e) : Greatest q edges' source x e where
  mem := (h e).mpr he.mem
  source_eq := he.source_eq
  input_eq := he.input_eq
  below f hf := he.below f ((h f).mp hf)

theorem Covers.congr (h : ∀ e, e ∈ edges' ↔ e ∈ edges) (hc : Covers edges source x) : Covers edges' source x := by
  obtain ⟨e, he, hk⟩ := hc
  exact ⟨e, (h e).mpr he, hk⟩

end Edge

/-! ## What becomes of a list of edges -/

/-- What becomes of a list of edges between the states of a set. -/
inductive Table.Assembles (q : StateSet) (a : Alphabet) (edges : List Edge) : Except TransducerError Table → Prop where
  /-- The first edge that reads an unknown symbol is reported. -/
  | unknownSymbol (before after : List Edge) (e : Edge) (split : edges = before ++ e :: after)
      (known : ∀ f ∈ before, f.input ∈ a.symbols) (unknown : e.input ∉ a.symbols) :
      Assembles q a edges (.error (.unknownSymbol e.input.text))
  /-- If there is none, the first state and symbol without an edge are reported, by state, then by symbol. -/
  | missingTransition (source id : Nat) (x : Symbol) (known : ∀ e ∈ edges, e.input ∈ a.symbols) (state : source < q.size)
      (symbol : a.symbols[id]? = some x) (free : ¬Edge.Covers edges source x)
      (first : ∀ (source' id' : Nat) (x' : Symbol), source' < source ∨ source' = source ∧ id' < id →
        a.symbols[id']? = some x' → Edge.Covers edges source' x') :
      Assembles q a edges (.error (.missingTransition (q.state source).text x.text))
  /-- If there are none, the table has just one transition for each state and symbol: that of the edge of highest rank. -/
  | table (t : Table) (known : ∀ e ∈ edges, e.input ∈ a.symbols) (states : t.rows.length = q.size)
      (symbols : ∀ row ∈ t.rows, row.length = a.size)
      (highest : ∀ (source id : Nat) (x : Symbol), source < q.size → a.symbols[id]? = some x →
        ∃ e, Edge.Greatest q edges source x e ∧ (∀ f, Edge.Greatest q edges source x f → f = e) ∧
          ∃ row, t.rows[source]? = some row ∧ row[id]? = some e.transition) :
      Assembles q a edges (.ok t)

namespace Table

variable {q : StateSet} {a : Alphabet} {edges edges' : List Edge}

/-- An entry is the transition of the edge of highest rank, or there is no edge. -/
theorem entry_spec (hn : q.paths.Nodup) (ht : ∀ e ∈ edges, e.target < q.size) (source : Nat) (state : State) (x : Symbol) :
    (∃ e, Edge.Greatest q edges source x e ∧ entry q (edges.filter (·.source = source)) state x = .ok e.transition) ∨
      (¬Edge.Covers edges source x ∧
        entry q (edges.filter (·.source = source)) state x = .error (.missingTransition state.text x.text)) := by
  have hmem : ∀ e, e ∈ (edges.filter (·.source = source)).filter (·.input = x) ↔
      e ∈ edges ∧ e.source = source ∧ e.input = x := by
    intro e
    simp only [List.mem_filter, decide_eq_true_eq, and_assoc]
  unfold entry
  generalize (edges.filter (·.source = source)).filter (·.input = x) = l at hmem ⊢
  rcases List.eq_nil_or_concat l with rfl | ⟨init, last, hl⟩
  · right
    refine ⟨?_, rfl⟩
    rintro ⟨e, he, hk⟩
    exact absurd ((hmem e).mpr ⟨he, hk⟩) List.not_mem_nil
  · left
    obtain ⟨e, hh, hel, hle⟩ := Edge.exists_highest? (q := q) (l := l) (by rw [hl]; simp)
    obtain ⟨he, hs, hx⟩ := (hmem e).mp hel
    refine ⟨e, ⟨he, hs, hx, ?_⟩, by rw [hh]; rfl⟩
    intro f hf hfs hfx hne
    have hfle := hle f ((hmem f).mpr ⟨hf, hfs, hfx⟩)
    rw [← Edge.compareRank_eq_lt_iff]
    cases hc : f.compareRank q e with
    | lt => rfl
    | eq => exact absurd (Edge.eq_of_compareRank hn (hfs.trans hs.symm) (hfx.trans hx.symm) (ht f hf) (ht e he) hc) hne
    | gt => simp [hc] at hfle

/-- An entry is that of the edge of highest rank. -/
theorem entry_eq_ok (hn : q.paths.Nodup) (ht : ∀ e ∈ edges, e.target < q.size) {source : Nat} {state : State} {x : Symbol}
    {tr : Transition} (h : entry q (edges.filter (·.source = source)) state x = .ok tr) :
    ∃ e, Edge.Greatest q edges source x e ∧ tr = e.transition := by
  rcases entry_spec hn ht source state x with ⟨e, he, hok⟩ | ⟨_, herr⟩
  · rw [hok, Except.ok.injEq] at h
    exact ⟨e, he, h.symm⟩
  · rw [herr] at h
    nomatch h

/-- An entry is missing where no edge is. -/
theorem entry_eq_error (hn : q.paths.Nodup) (ht : ∀ e ∈ edges, e.target < q.size) {source : Nat} {state : State} {x : Symbol}
    {err : TransducerError} (h : entry q (edges.filter (·.source = source)) state x = .error err) :
    ¬Edge.Covers edges source x ∧ err = .missingTransition state.text x.text := by
  rcases entry_spec hn ht source state x with ⟨e, he, hok⟩ | ⟨hfree, herr⟩
  · rw [hok] at h
    nomatch h
  · rw [herr, Except.error.injEq] at h
    exact ⟨hfree, h.symm⟩

/-- If all symbols are known, the table is made row by row, each row of the edges that leave its state. -/
theorem assemble_of_known (hk : ∀ e ∈ edges, e.input ∈ a.symbols) :
    assemble edges q a =
      (readAll (fun s : State × Nat => readAll (entry q (edges.filter (·.source = s.2)) s.1) a.symbols) q.states.zipIdx).map
        Table.mk := by
  have hfind : (edges.find? fun e => (a.find? e.input).isNone) = none := by
    rw [List.find?_eq_none]
    intro e he
    rw [Alphabet.isNone_find?_iff, not_not]
    exact hk e he
  have hrows :
      readAll (fun s : State × Nat => readAll (entry q ((bySource q.size edges)[s.2]?.getD []) s.1) a.symbols) q.states.zipIdx =
        readAll (fun s : State × Nat => readAll (entry q (edges.filter (·.source = s.2)) s.1) a.symbols) q.states.zipIdx := by
    refine readAll_congr fun s hs => ?_
    have hlt : s.2 < q.size := List.snd_lt_of_mem_zipIdx hs
    rw [getElem?_bySource edges hlt, Option.getD_some]
  rw [assemble, hfind, ← hrows]
  dsimp only
  split
  · next e he => exact (congrArg (Except.map Table.mk) he).symm
  · next rows hok => exact (congrArg (Except.map Table.mk) hok).symm

/-- The first edge that reads an unknown symbol is the error. -/
theorem assembles_of_unknown {e : Edge} (he : e ∈ edges) (hu : e.input ∉ a.symbols) :
    Assembles q a edges (assemble edges q a) := by
  cases hf : edges.find? fun e => (a.find? e.input).isNone with
  | none => exact absurd (Alphabet.isNone_find?_iff.mpr hu) (List.find?_eq_none.mp hf e he)
  | some f =>
    obtain ⟨hfu, before, after, hsplit, hbefore⟩ := List.find?_eq_some_iff_append.mp hf
    simp only [assemble, hf]
    refine .unknownSymbol before after f hsplit ?_ (Alphabet.isNone_find?_iff.mp hfu)
    intro g hg
    have hknown := hbefore g hg
    rw [Bool.not_eq_true', Bool.eq_false_iff, ne_eq, Alphabet.isNone_find?_iff, not_not] at hknown
    exact hknown

/-- The state of a row. -/
theorem getElem?_zipIdx_states {source : Nat} (h : source < q.size) : q.states.zipIdx[source]? = some (q.state source, source) := by
  have hs : q.states[source]? = some (q.state source) := by
    unfold StateSet.state StateSet.size at *
    rw [List.getElem?_eq_getElem h, Option.getD_some]
  rw [List.getElem?_zipIdx, hs, Option.map_some, Nat.zero_add]

/-- A row that was made has an edge for each symbol. -/
theorem covers_of_row (hn : q.paths.Nodup) (ht : ∀ e ∈ edges, e.target < q.size) {source id : Nat} {state : State} {x : Symbol}
    {row : List Transition} (h : readAll (entry q (edges.filter (·.source = source)) state) a.symbols = .ok row)
    (hx : a.symbols[id]? = some x) : Edge.Covers edges source x := by
  obtain ⟨tr, _, hentry⟩ := (getElem?_of_readAll h).2 id x hx
  obtain ⟨e, he, _⟩ := entry_eq_ok hn ht hentry
  exact ⟨e, he.mem, he.source_eq, he.input_eq⟩

/-- What becomes of a list of edges between states: each entry is looked at in the order of states and symbols. -/
theorem assembles (hn : q.paths.Nodup) (ht : ∀ e ∈ edges, e.target < q.size) : Assembles q a edges (assemble edges q a) := by
  by_cases hk : ∀ e ∈ edges, e.input ∈ a.symbols
  · rw [assemble_of_known hk]
    cases hr : readAll (fun s : State × Nat => readAll (entry q (edges.filter (·.source = s.2)) s.1) a.symbols) q.states.zipIdx with
    | error err =>
      obtain ⟨source, s, hs, hrow, hrows⟩ := exists_of_readAll_eq_error hr
      obtain ⟨id, x, hx, hentry, hentries⟩ := exists_of_readAll_eq_error hrow
      have hlt : source < q.size := by
        simpa [StateSet.size] using (List.getElem?_eq_some_iff.mp hs).1
      rw [getElem?_zipIdx_states hlt, Option.some.injEq] at hs
      subst hs
      obtain ⟨hfree, rfl⟩ := entry_eq_error hn ht hentry
      refine .missingTransition source id x hk hlt hx hfree ?_
      rintro source' id' x' (hbefore | ⟨rfl, hbefore⟩) hx'
      · obtain ⟨row, hrow'⟩ := hrows source' _ hbefore (getElem?_zipIdx_states (by omega))
        exact covers_of_row hn ht hrow' hx'
      · obtain ⟨tr, hentry'⟩ := hentries id' x' hbefore hx'
        obtain ⟨e, he, _⟩ := entry_eq_ok hn ht hentry'
        exact ⟨e, he.mem, he.source_eq, he.input_eq⟩
    | ok rows =>
      obtain ⟨hl, hrows⟩ := getElem?_of_readAll hr
      refine .table ⟨rows⟩ hk (by simpa [StateSet.size] using hl) ?_ ?_
      · intro row hm
        obtain ⟨s, _, hrow⟩ := exists_of_mem_readAll hr row hm
        exact (getElem?_of_readAll hrow).1
      · intro source id x hs hx
        obtain ⟨row, hrow, hread⟩ := hrows source _ (getElem?_zipIdx_states hs)
        obtain ⟨tr, htr, hentry⟩ := (getElem?_of_readAll hread).2 id x hx
        obtain ⟨e, he, rfl⟩ := entry_eq_ok hn ht hentry
        exact ⟨e, he, fun f hf => he.unique hf, row, hrow, htr⟩
  · simp only [not_forall] at hk
    obtain ⟨e, he, hu⟩ := hk
    exact assembles_of_unknown he hu

/-! ## The order of the edges -/

/-- Lists with the same edges miss the same state and symbol first. -/
theorem missing_unique (h : ∀ e, e ∈ edges' ↔ e ∈ edges) {source id source' id' : Nat} {x x' : Symbol}
    (hx : a.symbols[id]? = some x) (hx' : a.symbols[id']? = some x') (hfree : ¬Edge.Covers edges source x)
    (hfree' : ¬Edge.Covers edges' source' x')
    (hfirst : ∀ (s i : Nat) (y : Symbol), s < source ∨ s = source ∧ i < id → a.symbols[i]? = some y → Edge.Covers edges s y)
    (hfirst' : ∀ (s i : Nat) (y : Symbol), s < source' ∨ s = source' ∧ i < id' → a.symbols[i]? = some y →
      Edge.Covers edges' s y) : source' = source ∧ x' = x := by
  have hle : ¬(source' < source ∨ source' = source ∧ id' < id) := fun hb =>
    hfree' ((hfirst source' id' x' hb hx').congr h)
  have hge : ¬(source < source' ∨ source = source' ∧ id < id') := fun hb =>
    hfree ((hfirst' source id x hb hx).congr fun e => (h e).symm)
  have hs : source' = source := by omega
  have hid : id' = id := by omega
  rw [hid, hx, Option.some.injEq] at hx'
  exact ⟨hs, hx'.symm⟩

/-- What becomes of lists with the same edges is the same, but for the unknown symbol that is reported. -/
theorem Assembles.agree (h : ∀ e, e ∈ edges' ↔ e ∈ edges) {made made' : Except TransducerError Table}
    (hm : Assembles q a edges made) (hm' : Assembles q a edges' made') :
    made' = made ∨ ∃ x x', made = .error (.unknownSymbol x) ∧ made' = .error (.unknownSymbol x') := by
  cases hm with
  | unknownSymbol before after e hsplit _ hu =>
    have he : e ∈ edges' := (h e).mpr (hsplit ▸ List.mem_append_right _ List.mem_cons_self)
    cases hm' with
    | unknownSymbol => exact Or.inr ⟨_, _, rfl, rfl⟩
    | missingTransition _ _ _ hk => exact absurd (hk e he) hu
    | table _ hk => exact absurd (hk e he) hu
  | missingTransition source id x hk hs hx hfree hfirst =>
    cases hm' with
    | unknownSymbol before after e hsplit _ hu =>
      exact absurd (hk e ((h e).mp (hsplit ▸ List.mem_append_right _ List.mem_cons_self))) hu
    | missingTransition source' id' x' _ _ hx' hfree' hfirst' =>
      obtain ⟨rfl, rfl⟩ := missing_unique h hx hx' hfree hfree' hfirst hfirst'
      exact Or.inl rfl
    | table t _ _ _ hhigh =>
      obtain ⟨e, he, _⟩ := hhigh source id x hs hx
      exact absurd ⟨e, (h e).mp he.mem, he.source_eq, he.input_eq⟩ hfree
  | table t hk hstates hsymbols hhigh =>
    cases hm' with
    | unknownSymbol before after e hsplit _ hu =>
      exact absurd (hk e ((h e).mp (hsplit ▸ List.mem_append_right _ List.mem_cons_self))) hu
    | missingTransition source id x _ hs hx hfree =>
      obtain ⟨e, he, _⟩ := hhigh source id x hs hx
      exact absurd ⟨e, (h e).mpr he.mem, he.source_eq, he.input_eq⟩ hfree
    | table t' _ hstates' hsymbols' hhigh' =>
      have hrows : t'.rows = t.rows := by
        apply List.ext_getElem (hstates'.trans hstates.symm)
        intro source hs' hs
        have hl := hsymbols _ (List.getElem_mem hs)
        have hl' := hsymbols' _ (List.getElem_mem hs')
        apply List.ext_getElem (hl'.trans hl.symm)
        intro id hid' hid
        obtain ⟨x, hx⟩ : ∃ x, a.symbols[id]? = some x := ⟨_, List.getElem?_eq_getElem (Nat.lt_of_lt_of_eq hid hl)⟩
        obtain ⟨e, he, _, row, hrow, hentry⟩ := hhigh source id x (hstates ▸ hs) hx
        obtain ⟨e', he', _, row', hrow', hentry'⟩ := hhigh' source id x (hstates ▸ hs) hx
        have hee : e' = e := he.unique (he'.congr fun f => (h f).symm)
        rw [List.getElem?_eq_getElem hs, Option.some.injEq] at hrow
        rw [List.getElem?_eq_getElem hs', Option.some.injEq] at hrow'
        subst hrow hrow' hee
        rw [List.getElem?_eq_getElem hid, Option.some.injEq] at hentry
        rw [List.getElem?_eq_getElem hid', Option.some.injEq] at hentry'
        rw [hentry, hentry']
      exact Or.inl (congrArg Except.ok (congrArg Table.mk hrows))

/-- A list of edges between the states of a set becomes the table of the edges of highest rank, or the error for what it lacks.
So a list with the same edges, in any order and any number of times, becomes the same table, or lacks the same transition, or
also reads an unknown symbol. -/
theorem assemble_precedence {q : StateSet} (hq : q.Built) (a : Alphabet) {edges : List Edge}
    (ht : ∀ e ∈ edges, e.source < q.size ∧ e.target < q.size) :
    Assembles q a edges (assemble edges q a) ∧
      ∀ edges' : List Edge, (∀ e, e ∈ edges' ↔ e ∈ edges) →
        (∀ t, assemble edges' q a = .ok t ↔ assemble edges q a = .ok t) ∧
        (∀ state symbol, assemble edges' q a = .error (.missingTransition state symbol) ↔
          assemble edges q a = .error (.missingTransition state symbol)) ∧
        ((∃ symbol, assemble edges' q a = .error (.unknownSymbol symbol)) ↔
          ∃ symbol, assemble edges q a = .error (.unknownSymbol symbol)) := by
  have hm := assembles (a := a) hq.nodup_paths fun e he => (ht e he).2
  refine ⟨hm, ?_⟩
  intro edges' h
  have hm' := assembles (a := a) hq.nodup_paths fun e he => (ht e ((h e).mp he)).2
  rcases hm.agree h hm' with heq | ⟨x, x', hx, hx'⟩
  · rw [heq]
    exact ⟨fun _ => Iff.rfl, fun _ _ => Iff.rfl, Iff.rfl⟩
  · simp [hx, hx']

/-- The initial state and one more. -/
def twoStates : StateSet := (StateSet.initial .left).intern ⟨[.assimilation ⟨"a"⟩ ⟨"b"⟩], [⟨[⟨"c"⟩], []⟩]⟩ [⟨"c"⟩]

/-- Edges between two states, of which four are for the same state and symbol. -/
def competing : List Edge :=
  [⟨0, .wildcard, [.wildcard], 0, false⟩, ⟨0, ⟨"c"⟩, [⟨"b"⟩], 0, true⟩, ⟨0, ⟨"c"⟩, [⟨"a"⟩], 1, false⟩,
    ⟨0, ⟨"c"⟩, [⟨"c"⟩], 1, false⟩, ⟨0, ⟨"c"⟩, [], 1, false⟩, ⟨1, .wildcard, [.wildcard], 0, false⟩, ⟨1, ⟨"c"⟩, [⟨"c"⟩], 1, true⟩]

/-- Of the four edges the one to the longer path that writes the greatest output is kept, also if the edges come in reverse. -/
theorem assemble_precedence_competing :
    ∃ t, assemble competing twoStates (.ofSymbols [⟨"c"⟩]) = .ok t ∧
      assemble competing.reverse twoStates (.ofSymbols [⟨"c"⟩]) = .ok t ∧ t.get 0 1 = ⟨[⟨"c"⟩], 1, false⟩ := by
  have hq : twoStates.Built := .intern (.initial .left) _ _
  have hlt : ∀ e ∈ competing, e.source < twoStates.size ∧ e.target < twoStates.size := by decide +kernel
  obtain ⟨_, hsame⟩ := assemble_precedence hq (.ofSymbols [⟨"c"⟩]) hlt
  obtain ⟨hreverse, _⟩ := hsame competing.reverse fun e => List.mem_reverse
  let t : Table := ⟨[[⟨[.wildcard], 0, false⟩, ⟨[⟨"c"⟩], 1, false⟩], [⟨[.wildcard], 0, false⟩, ⟨[⟨"c"⟩], 1, true⟩]]⟩
  have ht : assemble competing twoStates (.ofSymbols [⟨"c"⟩]) = .ok t := by decide +kernel
  exact ⟨t, ht, (hreverse t).mpr ht, rfl⟩

end Table

end ReplaceRules
