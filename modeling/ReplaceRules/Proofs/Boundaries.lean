import Mathlib.Data.Nat.Find
import ReplaceRules.Proofs.Gaps

/-!
# The closing boundary

A run ends with the closing boundary of the frame. A context that has been read has boundaries at the outer ends of its sides only,
so a boundary is the first symbol of a pattern or its last one: a partial match that has read a boundary has read nothing before it,
and has not seen its focus (`Valid.eq_nil_of_concat_boundary`). So a boundary holds nothing back, whatever was read before, other
boundaries among it (`Valid.written_concat_boundary`), and the only path that can end with one is the boundary alone
(`StateSet.Tracks.longestSuffix_concat_boundary`).

`Trace.WritesAt` says which step writes which symbol. Main statement: in a run on an accepted set of rules nothing is left when the
input has ended, and the steps account for all that was replaced (`Transducer.compile_flushes`).
-/

namespace ReplaceRules

/-! ## Boundaries in patterns -/

theorem mem_tail_interleave {s : Symbol} {l : List Symbol} (h : s ∈ (interleave l).tail) : s = .empty ∨ s ∈ l.tail := by
  cases l with
  | nil => exact absurd h List.not_mem_nil
  | cons t rest =>
    cases rest with
    | nil => exact absurd h List.not_mem_nil
    | cons u rest =>
      rcases List.mem_cons.mp h with rfl | h
      · exact Or.inl rfl
      · exact mem_interleave h

theorem mem_dropLast_interleave {s : Symbol} {l : List Symbol} (h : s ∈ (interleave l).dropLast) : s = .empty ∨ s ∈ l.dropLast := by
  rw [← List.mem_reverse, ← List.tail_reverse, reverse_interleave] at h
  have ht := mem_tail_interleave h
  rwa [List.tail_reverse, List.mem_reverse] at ht

namespace RuleSet

variable {r : RuleSet}

/-- Environments have boundaries at the outer ends of their sides only, also where the contexts have gaps. -/
theorem Valid.boundary_notMem_inner (h : r.Valid) {c : Context} (hc : c ∈ r.environments) :
    ¬(Symbol.boundary ∈ c.left.tail ∨ Symbol.boundary ∈ c.right.dropLast) := by
  rcases eq_free_or_exists_context hc with rfl | ⟨d, hd, rfl⟩
  · simp [Context.free]
  · have hn := (h.contexts_read d hd).boundary_notMem_inner
    split
    · have hne : Symbol.boundary ≠ Symbol.empty := by decide
      rintro (hl | hr)
      · exact hn (Or.inl ((mem_tail_interleave hl).resolve_left hne))
      · exact hn (Or.inr ((mem_dropLast_interleave hr).resolve_left hne))
    · exact hn

/-- A partial match that has just read a boundary has read nothing before it, and has not seen its focus. The boundary is not the
input of a pair; on the left it has to be the first symbol, and on the right it would have to be the last one. -/
theorem Valid.eq_nil_of_concat_boundary (h : r.Valid) {p : Pattern} (hp : p ∈ (Patterns.ofRules r).toList) {path : List Symbol}
    (hpre : path ++ [.boundary] <+: p.symbols) (hl : (path ++ [Symbol.boundary]).length < p.symbols.length) :
    path = [] ∧ 0 < p.focus := by
  obtain ⟨rest, hs⟩ := hpre
  have hrest : rest ≠ [] := by
    rintro rfl
    rw [← hs, List.append_nil] at hl
    exact absurd hl (Nat.lt_irrefl _)
  obtain ⟨c, hc, q, hq, rfl⟩ := Patterns.mem_toList_iff.mp hp
  have hinner := h.boundary_notMem_inner hc
  have hinput := (h.pairs_read q hq).input_ne_boundary
  rw [List.append_assoc, List.singleton_append] at hs
  rcases List.append_eq_append_iff.mp hs with ⟨more, hleft, hinputs⟩ | ⟨more, _, hright⟩
  · cases more with
    | nil => exact absurd (List.cons.inj hinputs).1.symm hinput
    | cons s more =>
      obtain ⟨rfl, _⟩ := List.cons.inj hinputs
      cases path with
      | nil => exact ⟨rfl, by simp [Pattern.ofPair, hleft]⟩
      | cons t path => exact absurd (Or.inl (by simp [hleft])) hinner
  · cases more with
    | nil => exact absurd (List.cons.inj hright).1 hinput
    | cons s more =>
      have hright : c.right = more ++ .boundary :: rest := (List.cons.inj hright).2
      refine absurd (Or.inr ?_) hinner
      rw [hright, List.dropLast_append_of_ne_nil (List.cons_ne_nil _ _), List.dropLast_cons_of_ne_nil hrest]
      simp

/-- No partial match at the end of a text that ends with a boundary has seen its focus. -/
theorem Valid.isLive_drop_concat_boundary (h : r.Valid) {p : Pattern} (hp : p ∈ (Patterns.ofRules r).toList) (text : List Symbol)
    (i : Nat) : p.isLive ((text ++ [Symbol.boundary]).drop i) = false := by
  rw [Bool.eq_false_iff]
  intro hlive
  obtain ⟨hf, hl, hpre⟩ := Pattern.isLive_iff.mp hlive
  have hi : i ≤ text.length := by
    rw [List.length_drop, List.length_append, List.length_singleton] at hf
    omega
  rw [List.drop_append_of_le_length hi] at hf hl hpre
  obtain ⟨hnil, hfocus⟩ := h.eq_nil_of_concat_boundary hp hpre hl
  rw [hnil, List.nil_append, List.length_singleton] at hf
  omega

/-- A boundary holds nothing back. -/
theorem Valid.written_concat_boundary (h : r.Valid) (text : List Symbol) :
    (Patterns.ofRules r).written (text ++ [.boundary]) = (text ++ [Symbol.boundary]).length := by
  have hle := Patterns.written_le_length (.ofRules r) (text ++ [.boundary])
  by_contra hne
  obtain ⟨p, hp, i, hlive, _⟩ := Patterns.exists_isLive_of_written_lt (Nat.lt_of_le_of_ne hle hne)
  rw [h.isLive_drop_concat_boundary hp] at hlive
  nomatch hlive

end RuleSet

/-! ## The state after a boundary -/

namespace StateSet

variable {q : StateSet} {r : RuleSet}

/-- The only path that ends with a boundary is the boundary alone: a path that remembers a replacement ends with a partial match
that has seen its focus. -/
theorem Tracks.eq_nil_of_concat_boundary (ht : q.Tracks (.ofRules r)) (h : r.Valid) {path : List Symbol}
    (hp : path ++ [.boundary] ∈ q.paths) : path = [] := by
  rcases ht.paths_of _ hp with ⟨p, hps, hpre, hl⟩ | ⟨_, _, p, hps, i, hlive, _⟩
  · exact (h.eq_nil_of_concat_boundary hps hpre hl).1
  · rw [h.isLive_drop_concat_boundary hps] at hlive
    nomatch hlive

/-- A text that ends with a boundary leads to the state of the boundary alone, or to the initial state if there is none. -/
theorem Tracks.longestSuffix_concat_boundary (ht : q.Tracks (.ofRules r)) (h : r.Valid) (text : List Symbol) :
    q.longestSuffix (text ++ [.boundary]) = (q.find? [.boundary]).getD 0 := by
  have hlt := ht.longestSuffix_lt (text ++ [.boundary])
  have hmem := q.path_mem_paths hlt
  rcases List.suffix_concat_iff.mp (ht.path_longestSuffix_suffix (text ++ [.boundary])) with hn | ⟨path, he, _⟩
  · have hnone : q.find? [.boundary] = none := by
      rw [find?_eq_none_iff]
      intro hb
      have hle := length_le_longestSuffix hb (List.suffix_append text [.boundary])
      rw [hn] at hle
      exact absurd hle (Nat.not_succ_le_zero _)
    rw [hnone, Option.getD_none]
    exact ht.eq_of_path_eq hlt ht.size_pos (by rw [hn, ht.path_zero])
  · rw [he] at hmem
    obtain rfl := ht.eq_nil_of_concat_boundary h hmem
    have hfound := ht.find?_path_state hlt
    rw [he, List.nil_append] at hfound
    rw [hfound, Option.getD_some]

end StateSet

/-- The frame of an input ends with the closing boundary. -/
theorem RuleSet.exists_frame_eq_concat (r : RuleSet) (input : List Symbol) : ∃ before, r.frame input = before ++ [.boundary] := by
  unfold frame
  split
  · refine ⟨interleave (.boundary :: input) ++ [.empty], ?_⟩
    rw [interleave_concat (List.cons_ne_nil _ _), List.append_assoc]
    rfl
  · exact ⟨.boundary :: input, rfl⟩

/-! ## Which step writes which symbol -/

/-- The step with a number writes the symbol on a position of what the steps of a run write. -/
def Trace.WritesAt (t : Trace) (number position : Nat) : Prop :=
  ((t.steps.take number).flatMap (·.output)).length ≤ position ∧
    position < ((t.steps.take (number + 1)).flatMap (·.output)).length

namespace Trace

variable {t : Trace}

/-- Later steps write behind what was written. -/
theorem length_flatMap_take_le (steps : List Step) {m n : Nat} (h : m ≤ n) :
    ((steps.take m).flatMap (·.output)).length ≤ ((steps.take n).flatMap (·.output)).length := by
  obtain ⟨more, hm⟩ := (List.take_prefix_take_left h : steps.take m <+: steps.take n)
  rw [← hm, List.flatMap_append, List.length_append]
  exact Nat.le_add_right _ _

/-- No symbol is written twice. -/
theorem WritesAt.unique {m n position : Nat} (hm : t.WritesAt m position) (hn : t.WritesAt n position) : m = n := by
  rcases Nat.lt_trichotomy m n with h | h | h
  · have := length_flatMap_take_le t.steps (Nat.succ_le_of_lt h)
    exact absurd (Nat.lt_of_lt_of_le hm.2 this) (Nat.not_lt_of_le hn.1)
  · exact h
  · have := length_flatMap_take_le t.steps (Nat.succ_le_of_lt h)
    exact absurd (Nat.lt_of_lt_of_le hn.2 this) (Nat.not_lt_of_le hm.1)

/-- A step that writes a symbol is a step of the run. -/
theorem WritesAt.lt_length {number position : Nat} (h : t.WritesAt number position) : number < t.steps.length := by
  by_contra hle
  have hle := Nat.le_of_not_lt hle
  obtain ⟨h1, h2⟩ := h
  rw [List.take_of_length_le hle] at h1
  rw [List.take_of_length_le (Nat.le_succ_of_le hle)] at h2
  exact absurd h1 (Nat.not_le_of_lt h2)

/-- Every symbol that is written is written by one step. -/
theorem existsUnique_writesAt {position : Nat} (h : position < (t.steps.flatMap (·.output)).length) :
    ∃! number, t.WritesAt number position := by
  have hex : ∃ n, position < ((t.steps.take n).flatMap (·.output)).length := ⟨t.steps.length, by rwa [List.take_length]⟩
  have hfirst := Nat.find_spec hex
  cases hn : Nat.find hex with
  | zero =>
    rw [hn] at hfirst
    exact absurd hfirst (Nat.not_lt_zero _)
  | succ n =>
    rw [hn] at hfirst
    have hbefore := Nat.find_min hex (m := n) (by omega)
    have hwrites : t.WritesAt n position := ⟨Nat.le_of_not_lt hbefore, hfirst⟩
    exact ⟨n, hwrites, fun m hm => hm.unique hwrites⟩

end Trace

/-! ## What the steps of a run account for -/

/-- A symbol of a text is replaced: it is the input of a pair, and a context stands around it. -/
def RuleSet.ReplacesAt (r : RuleSet) (text : List Symbol) (position : Nat) : Prop :=
  (∃ p ∈ r.pairs, text[position]? = some p.input) ∧ r.StandsAround text position

/-- The symbols that are replaced are those on which a pattern of the rules has its focus. -/
theorem RuleSet.occurs_ofRules_iff {r : RuleSet} {text : List Symbol} {i : Nat} :
    (Patterns.ofRules r).Occurs text i ↔ r.ReplacesAt text i := by
  constructor
  · rintro ⟨_, hm, ho⟩
    obtain ⟨c, hc, p, hp, rfl⟩ := Patterns.mem_toList_iff.mp hm
    obtain ⟨hstands, hs⟩ := (Pattern.occursAt_ofPair c p text i).mp ho
    exact ⟨⟨p, hp, hs⟩, c, hc, (c.standsAround_iff (List.getElem?_eq_some_iff.mp hs).1).mp hstands⟩
  · rintro ⟨⟨p, hp, hs⟩, c, hc, hstands⟩
    refine ⟨_, Patterns.mem_toList_iff.mpr ⟨c, hc, p, hp, rfl⟩, (Pattern.occursAt_ofPair c p text i).mpr ⟨?_, hs⟩⟩
    exact (c.standsAround_iff (List.getElem?_eq_some_iff.mp hs).1).mpr hstands

namespace Transducer

/-- In a run on an input nothing is left when the input has ended: its steps have written all that becomes of the frame, and those
that replace account for all that was replaced. -/
structure Flushes (t : Transducer) (r : RuleSet) (input : List Symbol) : Prop where
  /-- The last state is that of the boundary alone, or the initial state if there is none. -/
  finalState_eq : (t.run input).finalState = (t.states.find? [.boundary]).getD 0
  /-- The last state owes nothing. -/
  finalOutput_eq : (t.run input).finalOutput = []
  /-- The steps write what becomes of the frame. -/
  writes_eq : (t.run input).steps.flatMap (·.output) = r.replaceEach [] (r.frame input)
  /-- Every symbol of the frame is written by one step. -/
  existsUnique : ∀ i < (r.frame input).length, ∃! number, (t.run input).WritesAt number i
  /-- A step replaces exactly if it writes a symbol that is replaced. -/
  replaces_iff : ∀ number step, (t.run input).steps[number]? = some step →
    (step.replaces = true ↔ ∃ i, (t.run input).WritesAt number i ∧ r.ReplacesAt (r.frame input) i)
  /-- Every symbol that is replaced is written by a step that replaces. -/
  exists_replaces : ∀ i, r.ReplacesAt (r.frame input) i → ∃ number step, (t.run input).steps[number]? = some step ∧
    (t.run input).WritesAt number i ∧ step.replaces = true

variable {t : Transducer} {r : RuleSet}

/-- The first steps of a run write as many symbols as the first symbols of the text release. -/
theorem Realizes.length_flatMap_take {ps : Patterns} (h : t.Realizes ps) (text : List Symbol) (n : Nat) :
    (((t.steps 0 text).take n).flatMap (·.output)).length = ps.written (text.take n) := by
  rw [take_steps]
  exact h.length_writes (text.take n)

/-- A step replaces exactly if it writes a symbol that is replaced. -/
theorem Realizes.replaces_iff {ps : Patterns} (h : t.Realizes ps) {text : List Symbol} {number : Nat} {step : Step}
    (hs : (t.steps 0 text)[number]? = some step) :
    step.replaces = true ↔ ∃ i, ps.written (text.take number) ≤ i ∧ i < ps.written (text.take (number + 1)) ∧ ps.Occurs text i := by
  rw [getElem?_steps, Option.map_eq_some_iff] at hs
  obtain ⟨x, hx, rfl⟩ := hs
  have htake : text.take (number + 1) = text.take number ++ [x] := by rw [List.take_add_one, hx, Option.toList_some]
  rw [h.step_replaces, ← htake]
  refine exists_congr fun i => and_congr_right fun _ => and_congr_right fun hi => ?_
  have hfinal := Patterns.occurs_append_iff hi (text.drop (number + 1))
  rw [List.take_append_drop] at hfinal
  exact hfinal.symm

/-- A machine that realizes the patterns of rules leaves nothing when an input has ended. -/
theorem Realizes.flushes (h : t.Realizes (.ofRules r)) (hrules : t.rules = r) (hr : r.Valid) (input : List Symbol) :
    t.Flushes r input := by
  subst hrules
  obtain ⟨before, hframe⟩ := t.rules.exists_frame_eq_concat input
  have hall : (Patterns.ofRules t.rules).written (t.rules.frame input) = (t.rules.frame input).length := by
    rw [hframe]
    exact hr.written_concat_boundary before
  have hwrites : t.writes 0 (t.rules.frame input) = t.rules.replaceEach [] (t.rules.frame input) := by
    rw [h.writes_eq, hall, RuleSet.replaceEach_eq_replaceAll, List.take_of_length_le]
    exact Nat.le_of_eq (Patterns.length_replaceAll _ _)
  have hstate : t.reach 0 (t.rules.frame input) = (t.states.find? [.boundary]).getD 0 := by
    rw [h.reach_eq, hframe]
    exact h.tracks.longestSuffix_concat_boundary hr before
  have howed : t.owed (t.reach 0 (t.rules.frame input)) = [] := by
    rw [h.owed_eq, hall, List.drop_of_length_le]
    exact Nat.le_of_eq (Patterns.length_replaceAll _ _)
  have hunique : ∀ i < (t.rules.frame input).length, ∃! number, (t.run input).WritesAt number i := by
    intro i hi
    have hlength : ((t.run input).steps.flatMap (·.output)).length = (t.rules.frame input).length :=
      (h.length_writes _).trans hall
    exact Trace.existsUnique_writesAt (by rwa [hlength])
  have hreplaces : ∀ number step, (t.run input).steps[number]? = some step →
      (step.replaces = true ↔ ∃ i, (t.run input).WritesAt number i ∧ t.rules.ReplacesAt (t.rules.frame input) i) := by
    intro number step hs
    have hstep : step.replaces = true ↔ _ := h.replaces_iff hs
    rw [hstep]
    refine exists_congr fun i => ?_
    rw [← and_assoc, RuleSet.occurs_ofRules_iff, ← h.length_flatMap_take, ← h.length_flatMap_take]
    rfl
  refine ⟨hstate, howed, hwrites, hunique, hreplaces, ?_⟩
  intro i hi
  have hlt : i < (t.rules.frame input).length := by
    obtain ⟨⟨p, _, hs⟩, _⟩ := hi
    exact (List.getElem?_eq_some_iff.mp hs).1
  obtain ⟨number, hnumber, _⟩ := hunique i hlt
  have hstep := List.getElem?_eq_getElem hnumber.lt_length
  exact ⟨number, _, hstep, hnumber, (hreplaces number _ hstep).mpr ⟨i, hnumber, hi⟩⟩

/-- After the closing boundary nothing is left, in every machine that is made of an accepted set of rules and for every list of
symbols, sentinels among them or not. -/
theorem compile_flushes {r : RuleSet} (h : r.Accepted) :
    (∃ t, compile r = .ok t) ∧ ∀ t, MadeFrom r t → ∀ input, t.Flushes r input := by
  refine ⟨⟨_, compile_eq_ok h.valid.pairs_ne_nil⟩, ?_⟩
  intro t ht input
  obtain ⟨hrules, hrealizes⟩ := ht.realizes h.valid
  exact hrealizes.flushes hrules h.valid input

/-- The boundary in the middle of the input completes a context, and begins another one, as those of the frame do. -/
theorem compile_flushes_boundaries :
    ∃ r t, RuleSet.ofRules ["a -> x"] ["$ _ b", "b _ $"] = .ok r ∧ compile r = .ok t ∧
      (t.run [⟨"a"⟩, ⟨"b"⟩, ⟨"a"⟩, .boundary, ⟨"a"⟩, ⟨"b"⟩]).finalState = 1 ∧ t.states.state 1 = ⟨[.boundary], 1⟩ ∧
      (t.run [⟨"a"⟩, ⟨"b"⟩, ⟨"a"⟩, .boundary, ⟨"a"⟩, ⟨"b"⟩]).finalOutput = [] ∧
      (t.run [⟨"a"⟩, ⟨"b"⟩, ⟨"a"⟩, .boundary, ⟨"a"⟩, ⟨"b"⟩]).steps.flatMap (·.output) =
        [.boundary, ⟨"x"⟩, ⟨"b"⟩, ⟨"x"⟩, .boundary, ⟨"x"⟩, ⟨"b"⟩, .boundary] := by
  have hr : RuleSet.ofRules ["a -> x"] ["$ _ b", "b _ $"] =
      .ok ⟨[.assimilation ⟨"a"⟩ ⟨"x"⟩], [⟨[.boundary], [⟨"b"⟩]⟩, ⟨[⟨"b"⟩], [.boundary]⟩]⟩ := by rfl
  obtain ⟨⟨t, hc⟩, hflushes⟩ := compile_flushes (.ofRules hr)
  have hf := hflushes t (.compile hc) [⟨"a"⟩, ⟨"b"⟩, ⟨"a"⟩, .boundary, ⟨"a"⟩, ⟨"b"⟩]
  have hmachine := eq_of_compile hc (by decide)
  have hfind : t.states.find? [.boundary] = some 1 := by
    rw [hmachine]
    decide +kernel
  have hstate : t.states.state 1 = ⟨[.boundary], 1⟩ := by
    rw [hmachine]
    decide +kernel
  refine ⟨_, t, hr, hc, ?_, hstate, hf.finalOutput_eq, ?_⟩
  · rw [hf.finalState_eq, hfind, Option.getD_some]
  · rw [hf.writes_eq]
    decide +kernel

end Transducer

end ReplaceRules
