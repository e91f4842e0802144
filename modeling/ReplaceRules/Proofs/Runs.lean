import ReplaceRules.Proofs.Construction
import ReplaceRules.Transducer.Run

/-!
# Runs and what they remember

`reach` is the state that a list of symbols leads to, and `writes` what is written on the way. A step takes the fallback edge on
the very symbol that is read, also if that is unknown and was looked up as the wildcard (`Realizes.step_eq`).

Main statement: a run tracks the longest path that ends the text, from the first symbol on and not only from the state before
(`Realizes.reach_eq`).
-/

namespace ReplaceRules

namespace Transducer

/-- The state that a list of symbols leads to. -/
def reach (t : Transducer) (state : Nat) (text : List Symbol) : Nat :=
  ((t.steps state text).getLast?.map (·.target)).getD state

/-- What is written while a list of symbols is read. -/
def writes (t : Transducer) (state : Nat) (text : List Symbol) : List Symbol := (t.steps state text).flatMap (·.output)

section Steps

variable (t : Transducer)

@[simp] theorem reach_nil (state : Nat) : t.reach state [] = state := rfl

/-- A text is read from its first symbol on. -/
theorem reach_cons (state : Nat) (x : Symbol) (rest : List Symbol) :
    t.reach state (x :: rest) = t.reach (t.step state x).target rest := by
  rw [reach, steps, List.getLast?_cons, reach]
  cases (t.steps (t.step state x).target rest).getLast? <;> rfl

/-- The steps on a longer text go on from the state that its first part leads to. -/
theorem steps_append (state : Nat) (text more : List Symbol) :
    t.steps state (text ++ more) = t.steps state text ++ t.steps (t.reach state text) more := by
  induction text generalizing state with
  | nil => rfl
  | cons x rest ih => rw [List.cons_append, steps, ih, reach_cons, steps, List.cons_append]

/-- One more symbol is one more step. -/
theorem steps_concat (state : Nat) (text : List Symbol) (x : Symbol) :
    t.steps state (text ++ [x]) = t.steps state text ++ [t.step (t.reach state text) x] := steps_append t state text [x]

theorem reach_concat (state : Nat) (text : List Symbol) (x : Symbol) :
    t.reach state (text ++ [x]) = (t.step (t.reach state text) x).target := by
  rw [reach, steps_concat, List.getLast?_concat, Option.map_some, Option.getD_some]

/-- The steps read the symbols of the text, one after the other. -/
theorem map_input_steps (state : Nat) (text : List Symbol) : (t.steps state text).map (·.input) = text := by
  induction text generalizing state with
  | nil => rfl
  | cons x rest ih => rw [steps, List.map_cons, ih, step]

/-- Each step of a run is the step from its source on the symbol that it reads. -/
theorem eq_step_of_mem_steps {state : Nat} {text : List Symbol} {s : Step} (h : s ∈ t.steps state text) :
    s = t.step s.source s.input := by
  induction text generalizing state with
  | nil => exact absurd h List.not_mem_nil
  | cons x rest ih =>
    rcases List.mem_cons.mp h with rfl | hm
    · rfl
    · exact ih hm

/-- The first steps on a text are the steps on its first symbols. -/
theorem take_steps (state : Nat) (text : List Symbol) (n : Nat) : (t.steps state text).take n = t.steps state (text.take n) := by
  induction text generalizing state n with
  | nil => simp [steps]
  | cons x rest ih =>
    cases n with
    | zero => rfl
    | succ n => rw [steps, List.take_succ_cons, List.take_succ_cons, ih, steps]

/-- Each symbol of a text is read by the step from the state that the symbols before it lead to. -/
theorem getElem?_steps (state : Nat) (text : List Symbol) (n : Nat) :
    (t.steps state text)[n]? = text[n]?.map fun x => t.step (t.reach state (text.take n)) x := by
  induction text generalizing state n with
  | nil => rfl
  | cons x rest ih =>
    cases n with
    | zero => rfl
    | succ n => rw [steps, List.getElem?_cons_succ, List.getElem?_cons_succ, ih, List.take_succ_cons, reach_cons]

theorem writes_concat (state : Nat) (text : List Symbol) (x : Symbol) :
    t.writes state (text ++ [x]) = t.writes state text ++ (t.step (t.reach state text) x).output := by
  rw [writes, steps_concat, List.flatMap_append, List.flatMap_singleton, ← writes]

/-- A text is read if none of its symbols is a sentinel or the marker, and then it is run symbol by symbol. -/
theorem runText_eq_ok_iff {text : String} {trace : Trace} :
    t.runText text = .ok trace ↔
      ∃ symbols, tokenize text = .ok symbols ∧ (∀ s ∈ symbols, s.isSentinel = false ∧ s ≠ .marker) ∧ trace = t.run symbols := by
  unfold runText
  cases ht : tokenize text with
  | error e => simp
  | ok symbols =>
    cases hf : symbols.find? fun s => s.isSentinel || s = .marker with
    | some s =>
      have hs := List.find?_some hf
      have hm := List.mem_of_find?_eq_some hf
      simp only [hf, reduceCtorEq, Except.ok.injEq, exists_eq_left', false_iff, not_and]
      intro hall
      simp [hall s hm] at hs
    | none =>
      have hall : ∀ s ∈ symbols, s.isSentinel = false ∧ s ≠ .marker := by simpa using List.find?_eq_none.mp hf
      simp only [hf, Except.ok.injEq, exists_eq_left', and_iff_right hall]
      exact eq_comm

/-- What becomes of a text is the output of its run. -/
theorem replace_eq_ok_iff_runText {text out : String} :
    t.replace text = .ok out ↔ ∃ trace, t.runText text = .ok trace ∧ out = join trace.output := by
  unfold replace
  cases t.runText text with
  | error e => simp
  | ok trace =>
    simp only [Except.ok.injEq, exists_eq_left']
    exact eq_comm

/-- A text that is read is replaced symbol by symbol. -/
theorem replace_eq_ok_iff {text out : String} :
    t.replace text = .ok out ↔
      ∃ symbols, tokenize text = .ok symbols ∧ (∀ s ∈ symbols, s.isSentinel = false ∧ s ≠ .marker) ∧
        out = join (t.replaceSymbols symbols) := by
  rw [replace_eq_ok_iff_runText]
  constructor
  · rintro ⟨trace, hrun, rfl⟩
    obtain ⟨symbols, ht, hs, rfl⟩ := t.runText_eq_ok_iff.mp hrun
    exact ⟨symbols, ht, hs, rfl⟩
  · rintro ⟨symbols, ht, hs, rfl⟩
    exact ⟨t.run symbols, t.runText_eq_ok_iff.mpr ⟨symbols, ht, hs, rfl⟩, rfl⟩

end Steps

/-! ## One step -/

section Step

variable {t : Transducer} {ps : Patterns} {q : StateSet} {a : Alphabet}

/-- A symbol that occurs in no pattern leads back to the start. -/
theorem longestSuffix_of_foreign (ht : q.Tracks ps) {x : Symbol} (hx : ∀ p ∈ ps.toList, x ∉ p.symbols) (text : List Symbol) :
    q.longestSuffix (text ++ [x]) = 0 := by
  have hlt := ht.longestSuffix_lt (text ++ [x])
  rcases List.suffix_concat_iff.mp (ht.path_longestSuffix_suffix (text ++ [x])) with hn | ⟨path, he, _⟩
  · exact ht.eq_of_path_eq hlt ht.size_pos (by rw [hn, ht.path_zero])
  · have hm : x ∈ (q.state (q.longestSuffix (text ++ [x]))).path := by simp [he]
    obtain ⟨p, hp, hs⟩ := Patterns.mem_symbols_of_path (ht.paths_of _ (q.path_mem_paths hlt)) hm
    exact absurd hs (hx p hp)

/-- A symbol is read as itself, unless no pattern has it. -/
theorem read_eq_or (ha : a.Knows ps) (x : Symbol) :
    a.read x = x ∨ a.read x = .wildcard ∧ ∀ p ∈ ps.toList, x ∉ p.symbols := by
  unfold Alphabet.read
  split
  · exact Or.inl rfl
  · next h => exact Or.inr ⟨rfl, fun p hp hx => h (ha p hp x hx)⟩

/-- The wildcard is in no path. -/
theorem wildcard_notMem_path (ht : q.Tracks ps) (hw : ps.Foreign .wildcard) {path : List Symbol} (hp : path ∈ q.paths) :
    Symbol.wildcard ∉ path := by
  intro hm
  obtain ⟨p, hps, hs⟩ := Patterns.mem_symbols_of_path (ht.paths_of path hp) hm
  exact hw.reads p hps hs

/-- What a symbol in an output stands for when a symbol was read. -/
def resolve (x o : Symbol) : Symbol := if o = .wildcard then x else o

/-- Resolving the wildcards changes nothing where only the symbol that was read can be a wildcard. -/
theorem map_resolve_eq_self {x : Symbol} {l : List Symbol} (h : Symbol.wildcard ∈ l → x = .wildcard) :
    l.map (resolve x) = l := by
  have hid : ∀ o ∈ l, resolve x o = id o := by
    intro o ho
    unfold resolve
    split
    · next hwo =>
      subst hwo
      exact h ho
    · rfl
  rw [List.map_congr_left hid, List.map_id]

/-- So it changes nothing in what becomes of a text. -/
theorem map_resolve_replaceAll (hw : ps.Foreign .wildcard) {x : Symbol} {text : List Symbol}
    (h : Symbol.wildcard ∈ text → x = .wildcard) : (ps.replaceAll text).map (resolve x) = ps.replaceAll text :=
  map_resolve_eq_self fun hm => h (Patterns.mem_of_mem_replaceAll hw.writes hm)

/-- What becomes of a window with the wildcard in place of an unknown symbol, resolved, is what becomes of the window with the
symbol itself. -/
theorem map_resolve_window (hw : ps.Foreign .wildcard) {path : List Symbol} (hp : Symbol.wildcard ∉ path) {x y : Symbol}
    (hy : y = x ∨ y = .wildcard ∧ ∀ p ∈ ps.toList, x ∉ p.symbols) :
    (ps.replaceAll (path ++ [y])).map (resolve x) = ps.replaceAll (path ++ [x]) := by
  rcases hy with rfl | ⟨rfl, hx⟩
  · apply map_resolve_replaceAll hw
    intro hm
    rcases List.mem_append.mp hm with hm | hm
    · exact absurd hm hp
    · exact (List.mem_singleton.mp hm).symm
  · rw [Patterns.replaceAll_concat_of_foreign hw.reads, Patterns.replaceAll_concat_of_foreign hx, List.map_append,
      map_resolve_replaceAll hw (fun hm => absurd hm hp)]
    rfl

/-- The step that takes an edge as it is. -/
def stepOf (e : Edge) : Step := ⟨e.source, e.input, e.output, e.target, e.replaces⟩

/-- The transition on a symbol is the fallback edge on what the symbol is read as. -/
theorem Realizes.get_lookup (h : t.Realizes ps) {state : Nat} (hs : state < t.states.size) (x : Symbol) :
    t.table.get state (t.alphabet.lookup x) = (Edge.fallback ps t.states state (t.alphabet.read x)).transition := by
  rw [h.table_eq]
  exact Table.get_ofFallbacks hs (Alphabet.getElem?_lookup h.wildcard_mem x)

/-- A step takes the fallback edge on the symbol that is read, also if that is unknown and was looked up as the wildcard: the windows
of both lead back to the start, and nothing occurs in them that does not occur in the path. -/
theorem Realizes.step_eq (h : t.Realizes ps) {state : Nat} (hs : state < t.states.size) (x : Symbol) :
    t.step state x = stepOf (Edge.fallback ps t.states state x) := by
  have hget := h.get_lookup hs x
  have hpath := wildcard_notMem_path h.tracks h.foreign (t.states.path_mem_paths hs)
  have hy := read_eq_or h.knows x
  generalize t.alphabet.read x = y at hget hy
  generalize hp : (t.states.state state).path = path at hpath
  have htarget : t.states.longestSuffix (path ++ [y]) = t.states.longestSuffix (path ++ [x]) := by
    rcases hy with rfl | ⟨rfl, hx⟩
    · rfl
    · rw [longestSuffix_of_foreign h.tracks h.foreign.reads, longestSuffix_of_foreign h.tracks hx]
  have hstop : ∀ target, t.states.pendingStart (path ++ [y]) target = t.states.pendingStart (path ++ [x]) target := by
    intro target
    simp only [StateSet.pendingStart, List.length_append, List.length_singleton]
  have houtput : ∀ start stop, (ps.settle (path ++ [y]) start stop).output.map (resolve x) =
      (ps.settle (path ++ [x]) start stop).output := by
    intro start stop
    rw [Patterns.settle_output, Patterns.settle_output, List.map_drop, List.map_take, map_resolve_window h.foreign hpath hy]
  have hreplaced : ∀ start stop, (ps.settle (path ++ [y]) start stop).replaced =
      (ps.settle (path ++ [x]) start stop).replaced := by
    intro start stop
    rw [Bool.eq_iff_iff, Patterns.settle_replaced, Patterns.settle_replaced]
    rcases hy with rfl | ⟨rfl, hx⟩
    · rfl
    · simp only [Patterns.occurs_concat_of_foreign h.foreign.reads, Patterns.occurs_concat_of_foreign hx]
  simp only [step, hget, Edge.transition, Edge.fallback, stepOf, hp, htarget, hstop, hreplaced, Step.mk.injEq, true_and,
    and_true]
  exact houtput _ _

/-- A step leads to the longest path that ends its window. -/
theorem Realizes.step_target (h : t.Realizes ps) {state : Nat} (hs : state < t.states.size) (x : Symbol) :
    (t.step state x).target = t.states.longestSuffix ((t.states.state state).path ++ [x]) := by
  rw [h.step_eq hs]
  rfl

end Step

/-! ## Whole runs -/

section Run

variable {t : Transducer} {ps : Patterns}

/-- A run leads to the state whose path is the longest that ends the text: by induction along the text, through the window of
each symbol. -/
theorem Realizes.reach_eq (h : t.Realizes ps) (text : List Symbol) : t.reach 0 text = t.states.longestSuffix text := by
  induction text using List.reverseRecOn with
  | nil => rw [reach_nil, StateSet.longestSuffix_nil]
  | append_singleton text x ih =>
    rw [reach_concat, ih, h.step_target (h.tracks.longestSuffix_lt text), ← h.closed.longestSuffix_concat h.tracks h.knows]

/-- Every run reaches a state. -/
theorem Realizes.reach_lt (h : t.Realizes ps) (text : List Symbol) : t.reach 0 text < t.states.size := by
  rw [h.reach_eq]
  exact h.tracks.longestSuffix_lt text

/-- The run on an accepted set of rules is always in the state whose path is the longest that ends the whole of what was read.
So the state depends on that path only: reading just the path leads to the same state. -/
theorem reach_longestSuffix {r : RuleSet} (h : r.Accepted) :
    ∃ t, compile r = .ok t ∧ ∀ text : List Symbol,
      t.reach 0 text = t.states.longestSuffix text ∧
      t.reach 0 text < t.states.size ∧
      (t.states.state (t.reach 0 text)).path <:+ text ∧
      (∀ s ∈ t.states.states, s.path <:+ text → s.path.length ≤ (t.states.state (t.reach 0 text)).path.length) ∧
      t.reach 0 (t.states.state (t.reach 0 text)).path = t.reach 0 text ∧
      ∀ x, t.reach 0 (text ++ [x]) = t.states.longestSuffix ((t.states.state (t.reach 0 text)).path ++ [x]) := by
  refine ⟨_, compile_eq_ok h.valid.pairs_ne_nil, ?_⟩
  intro text
  have hr := realizes_ofConstruction h.valid
  generalize ofConstruction r (.ofRules r) = t at hr
  have hlt := hr.tracks.longestSuffix_lt text
  simp only [hr.reach_eq]
  refine ⟨trivial, hlt, hr.tracks.path_longestSuffix_suffix text, ?_, ?_, ?_⟩
  · intro s hs hsuffix
    exact StateSet.length_le_longestSuffix (List.mem_map_of_mem hs) hsuffix
  · exact hr.tracks.longestSuffix_of_find? (hr.tracks.find?_path_state hlt)
  · intro x
    exact hr.closed.longestSuffix_concat hr.tracks hr.knows text x

/-- After `q y z a b d` the state is the carry state that remembers `y z a`. -/
theorem reach_longestSuffix_overlapping :
    ∃ t, compile .overlapping = .ok t ∧
      t.reach 0 [⟨"q"⟩, ⟨"y"⟩, ⟨"z"⟩, ⟨"a"⟩, ⟨"b"⟩, ⟨"d"⟩] =
        t.states.longestSuffix [⟨"q"⟩, ⟨"y"⟩, ⟨"z"⟩, ⟨"a"⟩, ⟨"b"⟩, ⟨"d"⟩] ∧
      (t.states.state (t.states.longestSuffix [⟨"q"⟩, ⟨"y"⟩, ⟨"z"⟩, ⟨"a"⟩, ⟨"b"⟩, ⟨"d"⟩])).path =
        [⟨"y"⟩, ⟨"z"⟩, ⟨"a"⟩, ⟨"b"⟩, ⟨"d"⟩] := by
  obtain ⟨t, hc, hreach⟩ := reach_longestSuffix RuleSet.accepted_overlapping
  refine ⟨t, hc, (hreach _).1, ?_⟩
  obtain rfl := eq_overlapping_of_compile hc
  decide +kernel

end Run

end Transducer

end ReplaceRules
