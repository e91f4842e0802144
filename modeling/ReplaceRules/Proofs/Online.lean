import Mathlib.Order.Bounds.Basic
import ReplaceRules.Proofs.Runs

/-!
# What is written at every moment of a run

A machine does not know how its input goes on. `Online` says what it has done after each text: it has written what becomes of
the text up to the earliest place that is still open, and no more and no less; what it has written stays right however the
text goes on; and what it owes completes the output if the text ends here.

The run invariant is that what was written is the first part of what becomes of the text, up to `written`
(`Realizes.writes_eq`). A step extends it by the part that the window settles, and what the window settles is what the whole
text settles there, because the state knows of every occurrence that is held back (`Closed.occurs_concat_iff`).

Main statement: every run on an accepted set of rules is online.
-/

namespace ReplaceRules

/-- A position of a text that is held back: the focus of a partial match at the end of the text that has seen its focus. -/
def Patterns.HeldBack (ps : Patterns) (text : List Symbol) (position : Nat) : Prop :=
  ∃ p ∈ ps.toList, ∃ i, text.drop i <+: p.symbols ∧ (text.drop i).length < p.symbols.length ∧
    p.focus < (text.drop i).length ∧ position = i + p.focus

namespace Patterns

variable {ps : Patterns} {text : List Symbol}

/-- A position that is held back lies in the text. -/
theorem HeldBack.lt_length {k : Nat} (h : ps.HeldBack text k) : k < text.length := by
  obtain ⟨p, _, i, _, _, hf, rfl⟩ := h
  rw [List.length_drop] at hf
  omega

/-- Nothing that is held back is written. -/
theorem HeldBack.written_le {k : Nat} (h : ps.HeldBack text k) : ps.written text ≤ k := by
  obtain ⟨p, hp, i, hs, hl, hf, rfl⟩ := h
  exact written_le_of_isLive hp (Pattern.isLive_iff.mpr ⟨hf, hl, hs⟩)

/-- The first position that is not written is held back. -/
theorem heldBack_written (h : ps.written text < text.length) : ps.HeldBack text (ps.written text) := by
  obtain ⟨p, hp, i, hi, he⟩ := exists_isLive_of_written_lt h
  obtain ⟨hf, hl, hs⟩ := Pattern.isLive_iff.mp hi
  exact ⟨p, hp, i, hs, hl, hf, he⟩

/-- The earliest position that is held back is the first that is not written. -/
theorem written_eq_of_isLeast {k : Nat} (h : IsLeast {k | ps.HeldBack text k} k) : ps.written text = k := by
  have hle := HeldBack.written_le h.1
  exact Nat.le_antisymm hle (h.2 (heldBack_written (Nat.lt_of_le_of_lt hle (HeldBack.lt_length h.1))))

/-- If no position is held back, all is written. -/
theorem written_eq_length (h : ∀ k, ¬ps.HeldBack text k) : ps.written text = text.length := by
  by_contra hne
  have hle := written_le_length ps text
  exact h _ (heldBack_written (by omega))

end Patterns

namespace Transducer

/-- The state after a text. -/
def after (t : Transducer) (text : List Symbol) : State := t.states.state (t.reach 0 text)

/-- What a machine has done, and what it holds back, after a text. -/
structure Online (t : Transducer) (ps : Patterns) (text : List Symbol) : Prop where
  /-- The path of the state ends the text. -/
  path_suffix : (t.after text).path <:+ text
  /-- What is held back begins at the earliest position that a partial match holds back. -/
  pending_of_isLeast : ∀ k, IsLeast {k | ps.HeldBack text k} k → (t.after text).pending = text.drop k
  /-- If there is no such position, nothing is held back. -/
  pending_of_none : (∀ k, ¬ps.HeldBack text k) → (t.after text).pending = []
  /-- As many symbols are written as are not held back. -/
  length_writes : (t.writes 0 text).length + (t.after text).pending.length = text.length
  /-- However the text goes on, they are what becomes of its first symbols. -/
  writes_eq : ∀ more,
    t.writes 0 text = (ps.replaceAll (text ++ more)).take (text.length - (t.after text).pending.length)
  /-- If the text ends here, what the state owes completes what becomes of the text. -/
  writes_append_owed : t.writes 0 text ++ t.owed (t.reach 0 text) = ps.replaceAll text
  /-- The last step replaces if one of the symbols that were held back before it, and are written after it, is the focus of an
  occurrence. -/
  replaces_iff : ∀ init x, text = init ++ [x] → ∃ step, (t.steps 0 text).getLast? = some step ∧
    (step.replaces = true ↔
      ∃ i, init.length - (t.after init).pending.length ≤ i ∧ i < text.length - (t.after text).pending.length ∧ ps.Occurs text i)

variable {t : Transducer} {ps : Patterns}

/-! ## What is held back -/

/-- The state after a text is that of the longest path which ends the text. -/
theorem Realizes.after_eq (h : t.Realizes ps) (text : List Symbol) :
    t.after text = t.states.state (t.states.longestSuffix text) := by
  rw [after, h.reach_eq]

/-- A text is cut before the path of its state. -/
theorem Realizes.exists_eq_append_path (h : t.Realizes ps) (text : List Symbol) :
    ∃ before, text = before ++ (t.after text).path := by
  rw [h.after_eq]
  exact h.tracks.exists_window_eq text

/-- What a text holds back, its state holds back. -/
theorem Realizes.written_eq (h : t.Realizes ps) {before text : List Symbol} (hb : text = before ++ (t.after text).path) :
    ps.written text = before.length + ps.written (t.after text).path := by
  rw [h.after_eq] at hb ⊢
  exact h.tracks.written_eq hb

/-- A state holds back the symbols of the text that are not written. -/
theorem Realizes.pending_after (h : t.Realizes ps) (text : List Symbol) :
    (t.after text).pending = text.drop (ps.written text) := by
  rw [h.after_eq]
  exact h.tracks.pending_longestSuffix text

/-- As many symbols are written as the state does not hold back. -/
theorem Realizes.written_eq_sub (h : t.Realizes ps) (text : List Symbol) :
    ps.written text = text.length - (t.after text).pending.length := by
  have hle := Patterns.written_le_length ps text
  rw [h.pending_after, List.length_drop]
  omega

/-! ## What a step writes -/

/-- On what is held back the occurrences after one more symbol are exactly those in the window of the step. -/
theorem Realizes.occurs_concat_iff (h : t.Realizes ps) {before text : List Symbol} {x : Symbol}
    (hb : text = before ++ (t.after text).path) {n : Nat} (hn : ps.written (t.after text).path ≤ n) :
    ps.Occurs (text ++ [x]) (before.length + n) ↔ ps.Occurs ((t.after text).path ++ [x]) n := by
  rw [h.after_eq] at hb hn ⊢
  exact h.closed.occurs_concat_iff h.tracks h.knows hb hn

/-- On what is held back the occurrences in a text are exactly those in the path of its state. -/
theorem Realizes.occurs_iff (h : t.Realizes ps) {before text : List Symbol} (hb : text = before ++ (t.after text).path) {n : Nat}
    (hn : ps.written (t.after text).path ≤ n) : ps.Occurs text (before.length + n) ↔ ps.Occurs (t.after text).path n := by
  rw [h.after_eq] at hb hn ⊢
  exact h.closed.occurs_iff h.tracks h.knows hb hn

/-- The window of a step holds back what the longer text holds back. -/
theorem Realizes.written_window (h : t.Realizes ps) {before text : List Symbol} {x : Symbol}
    (hb : text = before ++ (t.after text).path) :
    ps.written (text ++ [x]) = before.length + ps.written ((t.after text).path ++ [x]) := by
  have hlong : t.states.longestSuffix ((t.after text).path ++ [x]) = t.states.longestSuffix (text ++ [x]) := by
    rw [h.after_eq]
    exact (h.closed.longestSuffix_concat h.tracks h.knows text x).symm
  obtain ⟨second, hsecond⟩ := h.tracks.exists_window_eq ((t.after text).path ++ [x])
  have hw := h.tracks.written_eq hsecond
  have hall : text ++ [x] = (before ++ second) ++ (t.states.state (t.states.longestSuffix (text ++ [x]))).path := by
    rw [hlong] at hsecond
    rw [List.append_assoc, ← hsecond, ← List.append_assoc, ← hb]
  rw [h.tracks.written_eq hall, hw, hlong, List.length_append, Nat.add_assoc]

/-- The edge that is taken after a text settles what the longer text holds back no more. -/
theorem Realizes.step_after (h : t.Realizes ps) (text : List Symbol) (x : Symbol) :
    let window := (t.after text).path ++ [x]
    let settled := ps.settle window (ps.written (t.after text).path) (ps.written window)
    (t.step (t.reach 0 text) x).output = settled.output ∧ (t.step (t.reach 0 text) x).replaces = settled.replaced := by
  have hs : t.states.state (t.reach 0 text) = t.after text := rfl
  have hw : (t.after text).written = ps.written (t.after text).path := h.tracks.written_state (h.reach_lt text)
  rw [h.step_eq (h.reach_lt text)]
  simp only [stepOf, Edge.fallback, h.tracks.pendingStart_eq_written, hs, hw, and_self]

/-- A step writes what becomes of the symbols that are held back before it, but not after it. -/
theorem Realizes.step_output (h : t.Realizes ps) (text : List Symbol) (x : Symbol) :
    (t.step (t.reach 0 text) x).output =
      ((ps.replaceAll (text ++ [x])).take (ps.written (text ++ [x]))).drop (ps.written text) := by
  obtain ⟨before, hb⟩ := h.exists_eq_append_path text
  have hbx : text ++ [x] = before ++ ((t.after text).path ++ [x]) := by rw [← List.append_assoc, ← hb]
  have hseg := Patterns.replaceAll_suffix hbx (Patterns.written_le_length ps _) fun n hn => h.occurs_concat_iff hb hn
  rw [(h.step_after text x).1, Patterns.settle_output, h.written_window hb, h.written_eq hb, hseg]

/-- It replaces if an occurrence has its focus among them. -/
theorem Realizes.step_replaces (h : t.Realizes ps) (text : List Symbol) (x : Symbol) :
    (t.step (t.reach 0 text) x).replaces = true ↔
      ∃ i, ps.written text ≤ i ∧ i < ps.written (text ++ [x]) ∧ ps.Occurs (text ++ [x]) i := by
  obtain ⟨before, hb⟩ := h.exists_eq_append_path text
  rw [(h.step_after text x).2, Patterns.settle_replaced, h.written_window hb, h.written_eq hb]
  constructor
  · rintro ⟨n, hn, hlt, ho⟩
    exact ⟨before.length + n, by omega, by omega, (h.occurs_concat_iff hb hn).mpr ho⟩
  · rintro ⟨i, hi, hlt, ho⟩
    obtain ⟨n, rfl⟩ := Nat.exists_eq_add_of_le (Nat.le_trans (Nat.le_add_right _ _) hi)
    have hn : ps.written (t.after text).path ≤ n := by omega
    exact ⟨n, hn, by omega, (h.occurs_concat_iff hb hn).mp ho⟩

/-! ## What a run writes -/

/-- The run invariant: what was written is what becomes of the symbols that are not held back. -/
theorem Realizes.writes_eq (h : t.Realizes ps) (text : List Symbol) :
    t.writes 0 text = (ps.replaceAll text).take (ps.written text) := by
  induction text using List.reverseRecOn with
  | nil => rfl
  | append_singleton text x ih =>
    have hle := Patterns.written_le_written_concat ps text x
    have hfirst : (ps.replaceAll text).take (ps.written text) =
        ((ps.replaceAll (text ++ [x])).take (ps.written (text ++ [x]))).take (ps.written text) := by
      rw [List.take_take, Nat.min_eq_left hle, Patterns.take_written_replaceAll_append]
    rw [writes_concat, ih, h.step_output, hfirst, List.take_append_drop]

/-- As many symbols are written as the text releases. -/
theorem Realizes.length_writes (h : t.Realizes ps) (text : List Symbol) : (t.writes 0 text).length = ps.written text := by
  rw [h.writes_eq, List.length_take, Patterns.length_replaceAll]
  exact Nat.min_eq_left (Patterns.written_le_length ps text)

/-- What a state owes is what becomes of the symbols that it holds back. -/
theorem Realizes.owed_eq (h : t.Realizes ps) (text : List Symbol) :
    t.owed (t.reach 0 text) = (ps.replaceAll text).drop (ps.written text) := by
  obtain ⟨before, hb⟩ := h.exists_eq_append_path text
  have hw : (t.after text).written = ps.written (t.after text).path := h.tracks.written_state (h.reach_lt text)
  have howed : t.owed (t.reach 0 text) =
      (ps.settle (t.after text).path (t.after text).written (t.after text).path.length).output := by
    have hlt := h.reach_lt text
    simp only [owed, h.finals_eq, finalsOf, List.getElem?_map, after, StateSet.state]
    rw [List.getElem?_eq_getElem hlt]
    rfl
  have hseg := Patterns.replaceAll_suffix hb (Nat.le_refl _) fun n hn => h.occurs_iff hb hn
  have hall : (ps.replaceAll text).length ≤ before.length + (t.after text).path.length := by
    have hl := (congrArg List.length hb).trans List.length_append
    rw [Patterns.length_replaceAll]
    omega
  rw [List.take_of_length_le hall] at hseg
  rw [howed, hw, Patterns.settle_output, ← hseg, h.written_eq hb]

/-- Every run of the machine is online. -/
theorem Realizes.online (h : t.Realizes ps) (text : List Symbol) : t.Online ps text where
  path_suffix := by
    obtain ⟨before, hb⟩ := h.exists_eq_append_path text
    exact ⟨before, hb.symm⟩
  pending_of_isLeast k hk := by rw [h.pending_after, Patterns.written_eq_of_isLeast hk]
  pending_of_none hn := by rw [h.pending_after, Patterns.written_eq_length hn, List.drop_length]
  length_writes := by
    have hle := Patterns.written_le_length ps text
    rw [h.writes_eq, h.pending_after, List.length_take, List.length_drop, Patterns.length_replaceAll]
    omega
  writes_eq more := by rw [h.writes_eq, ← h.written_eq_sub, Patterns.take_written_replaceAll_append]
  writes_append_owed := by rw [h.writes_eq, h.owed_eq, List.take_append_drop]
  replaces_iff init x he := by
    subst he
    refine ⟨_, by rw [steps_concat, List.getLast?_concat], ?_⟩
    rw [← h.written_eq_sub, ← h.written_eq_sub]
    exact h.step_replaces init x

/-- Every run on an accepted set of rules is online: after each text it has written exactly what is settled, whatever follows.
-/
theorem compile_online {r : RuleSet} (h : r.Accepted) :
    ∃ t, compile r = .ok t ∧ ∀ text : List Symbol, t.Online (.ofRules r) text := by
  refine ⟨_, compile_eq_ok h.valid.pairs_ne_nil, ?_⟩
  intro text
  exact (realizes_ofConstruction h.valid).online text

/-- After `y z a b d` only `y z` is written; `b` is owed as `B`, and `a` as it is. -/
theorem compile_online_overlapping :
    ∃ t, compile .overlapping = .ok t ∧
      t.writes 0 [⟨"y"⟩, ⟨"z"⟩, ⟨"a"⟩, ⟨"b"⟩, ⟨"d"⟩] ++ t.owed (t.reach 0 [⟨"y"⟩, ⟨"z"⟩, ⟨"a"⟩, ⟨"b"⟩, ⟨"d"⟩]) =
        [⟨"y"⟩, ⟨"z"⟩, ⟨"a"⟩, ⟨"B"⟩, ⟨"d"⟩] ∧
      t.writes 0 [⟨"y"⟩, ⟨"z"⟩, ⟨"a"⟩, ⟨"b"⟩, ⟨"d"⟩] = [⟨"y"⟩, ⟨"z"⟩] := by
  obtain ⟨t, hc, honline⟩ := compile_online RuleSet.accepted_overlapping
  refine ⟨t, hc, ?_, ?_⟩
  · rw [(honline _).writes_append_owed]
    decide
  · obtain rfl := eq_overlapping_of_compile hc
    decide +kernel

end Transducer

end ReplaceRules
