import ReplaceRules.Proofs.Agreement
import ReplaceRules.Proofs.Reachability
import ReplaceRules.Proofs.Totality

/-!
# Unknown symbols do not interfere

In the output of a transition a wildcard stands for the symbol that was read. This is right only if a wildcard is written at once:
an unknown symbol that was held back would be written later, as the symbol that is read then. `PassesUnknown` says of a table
that nothing of the kind can happen. No path has a wildcard, no transition on another symbol writes one, and the transition on
the wildcard writes all that was held back, then the wildcard, and starts again.

From this follows what one step does (`PassesUnknown.step_of_unknown`, `PassesUnknown.step_of_known`), and from that, for two runs
side by side, that they differ in nothing but the unknown symbols themselves.

Main statement: in every machine of an accepted set of rules unknown symbols are passed on like that, and on two inputs that differ in
unknown symbols only, the machine goes through the same states (`compile_passesUnknown`).
-/

namespace ReplaceRules

/-! ## Symbols that are read alike -/

namespace Alphabet

variable {a : Alphabet} {x y : Symbol}

/-- Two symbols are the same, or both are read as the wildcard. -/
def ReadsAlike (a : Alphabet) (x y : Symbol) : Prop := x = y ∨ a.read x = .wildcard ∧ a.read y = .wildcard

theorem read_of_notMem (h : x ∉ a.symbols) : a.read x = .wildcard := if_neg h

/-- Two symbols outside the alphabet are read alike. -/
theorem readsAlike_of_notMem (hx : x ∉ a.symbols) (hy : y ∉ a.symbols) : a.ReadsAlike x y :=
  Or.inr ⟨read_of_notMem hx, read_of_notMem hy⟩

/-- What is not read as the wildcard is a symbol of the alphabet other than the wildcard. -/
theorem mem_of_read_ne (h : a.read x ≠ .wildcard) : x ∈ a.symbols ∧ x ≠ .wildcard := by
  unfold read at h
  split at h
  · next hx => exact ⟨hx, h⟩
  · exact absurd rfl h

theorem read_of_mem (h : x ∈ a.symbols) : a.read x = x := if_pos h

/-- What is read as the wildcard is looked up where the wildcard is. -/
theorem lookup_eq_of_read (h : a.read x = .wildcard) : a.lookup x = a.lookup .wildcard := by
  by_cases hx : x ∈ a.symbols
  · rw [read_of_mem hx] at h
    rw [h]
  · have hn := find?_of_notMem hx
    unfold lookup
    rw [hn, Option.getD_none]
    cases a.find? .wildcard <;> rfl

/-- Symbols that are read alike are looked up alike. -/
theorem ReadsAlike.lookup_eq (h : a.ReadsAlike x y) : a.lookup x = a.lookup y := by
  rcases h with rfl | ⟨hx, hy⟩
  · rfl
  · rw [lookup_eq_of_read hx, lookup_eq_of_read hy]

end Alphabet

/-- Lists of related symbols are related with gaps, too. -/
theorem forall₂_interleave {R : Symbol → Symbol → Prop} (hempty : R .empty .empty) {l l' : List Symbol}
    (h : List.Forall₂ R l l') : List.Forall₂ R (interleave l) (interleave l') := by
  induction h with
  | nil => exact .nil
  | cons hxy hrest ih =>
    cases hrest with
    | nil => exact .cons hxy .nil
    | cons _ _ => exact .cons hxy (.cons hempty ih)

/-- The frames of related inputs are related. -/
theorem RuleSet.forall₂_frame {R : Symbol → Symbol → Prop} (hR : ∀ s, R s s) (r : RuleSet) {input input' : List Symbol}
    (h : List.Forall₂ R input input') : List.Forall₂ R (r.frame input) (r.frame input') := by
  have hframed : List.Forall₂ R (.boundary :: input ++ [.boundary]) (.boundary :: input' ++ [.boundary]) :=
    .cons (hR _) (List.rel_append h (.cons (hR _) .nil))
  unfold frame
  dsimp only
  split
  · exact forall₂_interleave (hR _) hframed
  · exact hframed

/-! ## Steps and runs side by side -/

/-- Two steps do the same, but for the symbols that they read if these differ: then each step writes its own as the last one. -/
structure Step.Agrees (s s' : Step) : Prop where
  source : s.source = s'.source
  target : s.target = s'.target
  replaces : s.replaces = s'.replaces
  output : s.input = s'.input → s.output = s'.output
  /-- What is written before the symbols that were read is the same. -/
  differ : s.input ≠ s'.input → ∃ flushed, s.output = flushed ++ [s.input] ∧ s'.output = flushed ++ [s'.input]

/-- Two runs do the same step by step, and end alike. -/
structure Trace.Agrees (t t' : Trace) : Prop where
  steps : List.Forall₂ Step.Agrees t.steps t'.steps
  finalState : t.finalState = t'.finalState
  finalOutput : t.finalOutput = t'.finalOutput
  initialOutput : t.initialOutput = t'.initialOutput

namespace Transducer

/-! ## The table -/

/-- A machine never holds an unknown symbol back. -/
structure PassesUnknown (t : Transducer) : Prop where
  /-- No path has a wildcard. -/
  path : ∀ s ∈ t.states.states, Symbol.wildcard ∉ s.path
  /-- A transition on another symbol writes no wildcard. -/
  known : ∀ state < t.states.size, ∀ x ∈ t.alphabet.symbols, x ≠ .wildcard →
    Symbol.wildcard ∉ (t.table.get state (t.alphabet.lookup x)).output
  /-- The transition on the wildcard writes all that the state owes, then the wildcard, and leads back to the start. -/
  unknown : ∀ state < t.states.size,
    (t.table.get state (t.alphabet.lookup .wildcard)).output = t.owed state ++ [.wildcard] ∧
      (t.table.get state (t.alphabet.lookup .wildcard)).target = 0
  /-- What a state owes is one symbol for each that it holds back, and no wildcard. -/
  owed : ∀ state < t.states.size, (t.owed state).length = (t.states.state state).pending.length ∧
    Symbol.wildcard ∉ t.owed state

variable {t : Transducer} {ps : Patterns} {state : Nat}

/-- What a state owes is what becomes of the part of its path that it holds back. -/
theorem Realizes.owed_state (h : t.Realizes ps) (hs : state < t.states.size) :
    t.owed state = (ps.replaceAll (t.states.state state).path).drop (ps.written (t.states.state state).path) := by
  have howed := h.owed_eq (t.states.state state).path
  rwa [h.reach_path hs] at howed

/-- What becomes of a text has a wildcard only if the text has one. -/
theorem Realizes.wildcard_notMem_replaceAll (h : t.Realizes ps) {text : List Symbol} (ht : Symbol.wildcard ∉ text) :
    Symbol.wildcard ∉ ps.replaceAll text :=
  fun hm => ht (Patterns.mem_of_mem_replaceAll h.foreign.writes hm)

/-- A machine that realizes patterns of which the wildcard is no part holds no unknown symbol back. -/
theorem Realizes.passesUnknown (h : t.Realizes ps) : t.PassesUnknown where
  path s hs := wildcard_notMem_path h.tracks h.foreign (List.mem_map_of_mem hs)
  known state hs x hx hne := by
    have hpath := wildcard_notMem_path h.tracks h.foreign (t.states.path_mem_paths hs)
    have hwindow : Symbol.wildcard ∉ (t.states.state state).path ++ [x] := by
      rw [List.mem_append, List.mem_singleton]
      exact fun hm => hm.elim hpath fun he => hne he.symm
    rw [h.get_lookup hs, Alphabet.read_of_mem hx]
    simp only [Edge.transition, Edge.fallback, Patterns.settle_output]
    intro hm
    exact h.wildcard_notMem_replaceAll hwindow (List.mem_of_mem_take (List.mem_of_mem_drop hm))
  unknown state hs := by
    have htarget : t.states.longestSuffix ((t.states.state state).path ++ [.wildcard]) = 0 :=
      longestSuffix_of_foreign h.tracks h.foreign.reads _
    have hstart : t.states.pendingStart ((t.states.state state).path ++ [.wildcard]) 0 =
        (t.states.state state).path.length + 1 := by
      rw [StateSet.pendingStart, h.tracks.length_pending h.tracks.size_pos, h.tracks.path_zero, List.length_nil,
        Nat.zero_sub, Nat.sub_zero, List.length_append, List.length_singleton]
    have hwritten := Patterns.written_le_length ps (t.states.state state).path
    rw [h.get_lookup hs, Alphabet.read_of_mem h.wildcard_mem, h.owed_state hs]
    simp only [Edge.transition, Edge.fallback, htarget, hstart, Patterns.settle_output, and_true]
    rw [Patterns.replaceAll_concat_of_foreign h.foreign.reads, List.take_of_length_le (by simp), h.tracks.written_state hs,
      List.drop_append_of_le_length (by rw [Patterns.length_replaceAll]; exact hwritten)]
  owed state hs := by
    have hpath := wildcard_notMem_path h.tracks h.foreign (t.states.path_mem_paths hs)
    rw [h.owed_state hs, List.length_drop, Patterns.length_replaceAll, h.tracks.length_pending hs]
    exact ⟨rfl, fun hm => h.wildcard_notMem_replaceAll hpath (List.mem_of_mem_drop hm)⟩

/-! ## One step -/

/-- A step on an unknown symbol writes all that was held back, then that symbol, and leads back to the start. -/
theorem PassesUnknown.step_of_unknown (ht : t.PassesUnknown) (hs : state < t.states.size) {x : Symbol}
    (hx : t.alphabet.read x = .wildcard) : (t.step state x).output = t.owed state ++ [x] ∧ (t.step state x).target = 0 := by
  obtain ⟨houtput, htarget⟩ := ht.unknown state hs
  rw [← Alphabet.lookup_eq_of_read hx] at houtput htarget
  refine ⟨?_, htarget⟩
  have hmap : (t.step state x).output = (t.table.get state (t.alphabet.lookup x)).output.map (resolve x) := rfl
  rw [hmap, houtput, List.map_append, map_resolve_eq_self fun hm => absurd hm (ht.owed state hs).2]
  rfl

/-- A step on a known symbol writes what the transition writes: there is no wildcard to resolve. -/
theorem PassesUnknown.step_of_known (ht : t.PassesUnknown) (hs : state < t.states.size) {x : Symbol}
    (hx : t.alphabet.read x ≠ .wildcard) :
    (t.step state x).output = (t.table.get state (t.alphabet.lookup x)).output ∧
      Symbol.wildcard ∉ (t.table.get state (t.alphabet.lookup x)).output := by
  obtain ⟨hmem, hne⟩ := Alphabet.mem_of_read_ne hx
  have hnone := ht.known state hs x hmem hne
  exact ⟨map_resolve_eq_self fun hm => absurd hm hnone, hnone⟩

/-- Steps from one state on symbols that are read alike agree. -/
theorem PassesUnknown.step_agrees (ht : t.PassesUnknown) (hs : state < t.states.size) {x y : Symbol}
    (h : t.alphabet.ReadsAlike x y) : (t.step state x).Agrees (t.step state y) where
  source := rfl
  target := by simp only [step, h.lookup_eq]
  replaces := by simp only [step, h.lookup_eq]
  output he := by
    have hxy : x = y := he
    rw [hxy]
  differ hne := by
    obtain ⟨hx, hy⟩ := h.resolve_left hne
    exact ⟨t.owed state, (ht.step_of_unknown hs hx).1, (ht.step_of_unknown hs hy).1⟩

/-! ## Two runs -/

/-- Runs from one state on symbols that are read alike agree step by step, and lead to the same state: by induction along the two
texts, since steps that agree end in the same state. -/
theorem Realizes.steps_agree (h : t.Realizes ps) (hs : state < t.states.size) {text text' : List Symbol}
    (ha : List.Forall₂ t.alphabet.ReadsAlike text text') :
    List.Forall₂ Step.Agrees (t.steps state text) (t.steps state text') ∧ t.reach state text = t.reach state text' := by
  induction ha generalizing state with
  | nil => exact ⟨.nil, rfl⟩
  | @cons x y _ _ hxy _ ih =>
    have hstep := h.passesUnknown.step_agrees hs hxy
    obtain ⟨hsteps, hreach⟩ := ih (h.step_target_lt hs x)
    rw [steps, steps, reach_cons, reach_cons, ← hstep.target]
    exact ⟨.cons hstep hsteps, hreach⟩

/-- Runs on inputs that are read alike agree. -/
theorem Realizes.run_agrees (h : t.Realizes ps) {input input' : List Symbol}
    (ha : List.Forall₂ t.alphabet.ReadsAlike input input') : (t.run input).Agrees (t.run input') := by
  obtain ⟨hsteps, hreach⟩ :=
    h.steps_agree h.tracks.size_pos (t.rules.forall₂_frame (fun _ => Or.inl rfl) ha)
  exact ⟨hsteps, hreach, congrArg t.owed hreach, rfl⟩

/-- A step puts nothing in the place of a wildcard but the symbol that it reads, and that only if the symbol is unknown: then it is
the last one that is written, after all that was held back. -/
def Resolves (t : Transducer) (s : Step) : Prop :=
  if t.alphabet.read s.input = .wildcard then s.output = t.owed s.source ++ [s.input] ∧ s.target = 0
  else s.output = (t.table.get s.source (t.alphabet.lookup s.input)).output ∧ Symbol.wildcard ∉ s.output

/-- A machine that passes unknown symbols on does so in each of its steps. -/
theorem PassesUnknown.resolves_step (ht : t.PassesUnknown) (hs : state < t.states.size) (x : Symbol) :
    t.Resolves (t.step state x) := by
  unfold Resolves
  split
  · next hx => exact ht.step_of_unknown hs hx
  · next hx =>
    obtain ⟨houtput, hnone⟩ := ht.step_of_known hs hx
    exact ⟨houtput, houtput ▸ hnone⟩

/-- The machine of an accepted set of rules, with an initial output or without, never holds an unknown symbol back: the table passes
unknown symbols on, and no step puts a symbol in the place of a wildcard that stood for another one. So if two inputs are at each
position the same or both unknown, the runs on them go through the same states, and write the same but for the unknown symbols,
each of which is the last one that is written when it is read. -/
theorem compile_passesUnknown {r : RuleSet} (h : r.Accepted) :
    (∃ t, Transducer.compile r = .ok t) ∧ ∀ t, MadeFrom r t →
      t.PassesUnknown ∧
      (∀ input, (t.run input).steps.map (·.input) = r.frame input ∧ ∀ s ∈ (t.run input).steps, t.Resolves s) ∧
      ∀ input input', List.Forall₂ t.alphabet.ReadsAlike input input' → (t.run input).Agrees (t.run input') := by
  refine ⟨⟨_, compile_eq_ok h.valid.pairs_ne_nil⟩, ?_⟩
  intro t hmade
  obtain ⟨rfl, hr⟩ := hmade.realizes h.valid
  have hpass := hr.passesUnknown
  refine ⟨hpass, fun input => ⟨t.map_input_steps 0 _, ?_⟩, fun input input' => hr.run_agrees⟩
  intro s hs
  have hsource := (hr.steps_lt hr.tracks.size_pos _ s hs).1
  rw [t.eq_step_of_mem_steps hs]
  exact hpass.resolves_step hsource s.input

/-- The unknown symbol after `y z a` shows that `a` is not replaced, and is written right after it. -/
theorem compile_passesUnknown_overlapping :
    ∃ t, Transducer.compile .overlapping = .ok t ∧
      (t.run [⟨"y"⟩, ⟨"z"⟩, ⟨"a"⟩, ⟨"q"⟩, ⟨"d"⟩]).Agrees (t.run [⟨"y"⟩, ⟨"z"⟩, ⟨"a"⟩, ⟨"w"⟩, ⟨"d"⟩]) ∧
      (t.run [⟨"y"⟩, ⟨"z"⟩, ⟨"a"⟩, ⟨"q"⟩, ⟨"d"⟩]).steps[4]?.map (·.output) = some [⟨"a"⟩, ⟨"q"⟩] := by
  obtain ⟨⟨t, hc⟩, hall⟩ := compile_passesUnknown RuleSet.accepted_overlapping
  obtain ⟨_, _, hagrees⟩ := hall t (.compile hc)
  obtain rfl := eq_overlapping_of_compile hc
  have hunknown : overlapping.alphabet.ReadsAlike ⟨"q"⟩ ⟨"w"⟩ :=
    Alphabet.readsAlike_of_notMem (by decide +kernel) (by decide +kernel)
  refine ⟨_, hc, hagrees _ _ ?_, ?_⟩
  · exact .cons (Or.inl rfl) (.cons (Or.inl rfl) (.cons (Or.inl rfl) (.cons hunknown (.cons (Or.inl rfl) .nil))))
  · decide +kernel

end Transducer

end ReplaceRules
