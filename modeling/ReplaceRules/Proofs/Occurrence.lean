import Mathlib.Data.List.Infix
import ReplaceRules.Pattern

/-!
# Occurrences

A pattern occurs in a text with its focus on a position if its symbols stand there. `replaceAll` is the meaning of patterns
without any machine: every symbol of a text on which some pattern has its focus is replaced by the output of that pattern, and
every other symbol is kept.

The machine looks at windows of a text, so the main statements compare a text with a part of it: an occurrence in the part is
one in the text, an occurrence in the text that fits into the part is one in the part, and where text and part have their
occurrences on the same positions they are replaced by the same symbols (`replaceAll_segment`). `settle`, by which machines
write, is a segment of `replaceAll` (`settle_output`).
-/

namespace ReplaceRules

/-- A pattern occurs in a text with its focus on a position. -/
def Pattern.OccursAt (p : Pattern) (text : List Symbol) (position : Nat) : Prop :=
  p.focus ≤ position ∧ p.symbols <+: text.drop (position - p.focus)

instance (p : Pattern) (text : List Symbol) (position : Nat) : Decidable (p.OccursAt text position) :=
  inferInstanceAs (Decidable (_ ∧ _))

namespace Patterns

/-- Some pattern occurs in a text with its focus on a position. -/
def Occurs (ps : Patterns) (text : List Symbol) (position : Nat) : Prop := ∃ p ∈ ps.toList, p.OccursAt text position

/-- What becomes of a text: each symbol on which a pattern has its focus is replaced, all at the same time. -/
def replaceAll (ps : Patterns) (text : List Symbol) : List Symbol :=
  text.zipIdx.map fun (s, i) => ((ps.toList.find? fun p => p.OccursAt text i).map (·.output)).getD s

end Patterns

/-! ## A pattern in a text and in a part of it -/

namespace Pattern

/-- The patterns of pairs in contexts have their focus inside. -/
theorem focus_lt_length {ps : Patterns} {p : Pattern} (h : p ∈ ps.toList) : p.focus < p.symbols.length := by
  simp only [Patterns.toList, List.mem_flatMap, List.mem_map] at h
  obtain ⟨c, _, q, _, rfl⟩ := h
  simp [ofPair]

variable {p : Pattern}

/-- An occurrence ends where the text ends, or before. -/
theorem OccursAt.end_le {text : List Symbol} {i : Nat} (h : p.OccursAt text i) (hn : p.symbols ≠ []) :
    i + p.symbols.length ≤ text.length + p.focus := by
  have hl := h.2.length_le
  have hp := List.length_pos_iff.mpr hn
  rw [List.length_drop] at hl
  have := h.1
  omega

/-- A text has a symbol where a pattern has its focus. -/
theorem OccursAt.lt_length {text : List Symbol} {i : Nat} (h : p.OccursAt text i) (hf : p.focus < p.symbols.length) :
    i < text.length := by
  have := h.end_le (List.ne_nil_of_length_pos (Nat.zero_lt_of_lt hf))
  omega

/-- An occurrence stays one when a text goes on. -/
theorem OccursAt.append_right {text : List Symbol} {i : Nat} (h : p.OccursAt text i) (more : List Symbol) :
    p.OccursAt (text ++ more) i :=
  ⟨h.1, h.2.trans ((List.prefix_append text more).drop _)⟩

/-- An occurrence that ends inside the first part of a text is one in that part. -/
theorem OccursAt.of_append_right {text more : List Symbol} {i : Nat} (h : p.OccursAt (text ++ more) i)
    (he : i + p.symbols.length ≤ text.length + p.focus) : p.OccursAt text i := by
  refine ⟨h.1, List.prefix_of_prefix_length_le h.2 ((List.prefix_append text more).drop _) ?_⟩
  have := h.1
  rw [List.length_drop]
  omega

/-- Symbols in front of a text move the positions of its occurrences. -/
theorem occursAt_append_left (before text : List Symbol) {i : Nat} (hf : p.focus ≤ i) :
    p.OccursAt (before ++ text) (before.length + i) ↔ p.OccursAt text i := by
  have he : before.length + i - p.focus = before.length + (i - p.focus) := by omega
  unfold OccursAt
  rw [he, List.drop_length_add_append]
  exact ⟨fun h => ⟨hf, h.2⟩, fun h => ⟨by omega, h.2⟩⟩

theorem OccursAt.append_left {text : List Symbol} {i : Nat} (h : p.OccursAt text i) (before : List Symbol) :
    p.OccursAt (before ++ text) (before.length + i) :=
  (occursAt_append_left before text h.1).mpr h

/-- A pattern that has a symbol which does not occur in it to its right does not reach it, since that would be its last symbol. -/
theorem OccursAt.of_foreign {text : List Symbol} {x : Symbol} {i : Nat} (h : p.OccursAt (text ++ [x]) i)
    (hx : x ∉ p.symbols) (hn : p.symbols ≠ []) : p.OccursAt text i := by
  have he := h.end_le hn
  rw [List.length_append, List.length_singleton] at he
  by_cases hi : i + p.symbols.length ≤ text.length + p.focus
  · exact h.of_append_right hi
  · obtain ⟨rest, hr⟩ := h.2
    have hl := congrArg List.length hr
    rw [List.length_append, List.length_drop, List.length_append, List.length_singleton] at hl
    have hf := h.1
    have hp := List.length_pos_iff.mpr hn
    have hr0 : rest = [] := List.eq_nil_of_length_eq_zero (by omega)
    rw [hr0, List.append_nil, List.drop_append_of_le_length (by omega)] at hr
    exact absurd (hr ▸ List.mem_append_right _ (List.mem_singleton_self x)) hx

/-- A pair in a context occurs where its input stands and the context stands around it. -/
theorem occursAt_ofPair (c : Context) (q : Pair) (text : List Symbol) (i : Nat) :
    (ofPair c q).OccursAt text i ↔ c.standsAround text i = true ∧ text[i]? = some q.input := by
  simp only [OccursAt, ofPair, Context.standsAround, Bool.and_eq_true, decide_eq_true_eq, List.isPrefixOf_iff_prefix]
  constructor
  · rintro ⟨hl, rest, hr⟩
    have hd : text.drop i = q.input :: (c.right ++ rest) := by
      have := congrArg (List.drop c.left.length) hr
      rw [List.drop_drop, Nat.sub_add_cancel hl] at this
      rw [← this]
      simp
    refine ⟨⟨⟨hl, ?_⟩, ?_⟩, ?_⟩
    · rw [← hr, List.append_assoc]
      exact List.prefix_append _ _
    · rw [← List.tail_drop, hd]
      exact List.prefix_append _ _
    · rw [← List.head?_drop, hd]
      rfl
  · rintro ⟨⟨⟨hl, hleft⟩, hright⟩, hi⟩
    refine ⟨hl, ?_⟩
    obtain ⟨rest, hr⟩ := hleft
    have hd : text.drop i = rest := by
      have := congrArg (List.drop c.left.length) hr
      rw [List.drop_drop, Nat.sub_add_cancel hl, List.drop_append_length] at this
      exact this.symm
    obtain ⟨hlt, he⟩ := List.getElem?_eq_some_iff.mp hi
    have hrest : rest = q.input :: text.drop (i + 1) := by
      rw [← hd, List.drop_eq_getElem_cons hlt, he]
    rw [← hr, hrest, List.prefix_append_right_inj, List.cons_prefix_cons]
    exact ⟨rfl, hright⟩

end Pattern

/-! ## The occurrence that is found -/

namespace Patterns

variable (ps : Patterns)

/-- The occurrence that is found on a position is that of the first pattern which occurs there. -/
theorem occurrence?_eq_find? (text : List Symbol) (i : Nat) :
    ps.occurrence? text i = ps.toList.find? fun p => p.OccursAt text i := by
  have hf : ∀ c : Context, ((ps.pairs.map (Pattern.ofPair c)).find? fun p => p.OccursAt text i) =
      if c.standsAround text i = true then
        ((text[i]?.bind fun s => ps.pairs.find? (·.input = s)).map (Pattern.ofPair c))
      else none := by
    intro c
    rw [List.find?_map]
    cases hs : text[i]? with
    | none =>
      have : ps.pairs.find? ((fun p => decide (p.OccursAt text i)) ∘ Pattern.ofPair c) = none := by
        simp [List.find?_eq_none, Pattern.occursAt_ofPair, hs]
      rw [this]
      simp
    | some s =>
      by_cases hc : c.standsAround text i = true
      · have hp : (fun p => decide (p.OccursAt text i)) ∘ Pattern.ofPair c = fun q => decide (q.input = s) := by
          funext q
          rw [Function.comp_apply, decide_eq_decide, Pattern.occursAt_ofPair, hs, Option.some.injEq]
          exact ⟨fun h => h.2.symm, fun h => ⟨hc, h.symm⟩⟩
        rw [hp, if_pos hc, Option.bind_some]
      · have : ps.pairs.find? ((fun p => decide (p.OccursAt text i)) ∘ Pattern.ofPair c) = none := by
          simp [List.find?_eq_none, Pattern.occursAt_ofPair, hc]
        rw [this]
        simp [hc]
  simp only [toList, List.find?_flatMap, hf]
  unfold occurrence?
  cases (text[i]?.bind fun s => ps.pairs.find? (·.input = s)) with
  | none => simpa using (List.findSome?_eq_none_iff.mpr fun _ _ => rfl).symm
  | some q =>
    simp only [Option.bind_some, Option.map_some]
    induction ps.environments with
    | nil => rfl
    | cons c rest ih =>
      by_cases hc : c.standsAround text i = true
      · simp [hc]
      · simpa [hc] using ih

variable {ps}

/-- The occurrence that is found is one of a pattern. -/
theorem occurrence?_eq_some {text : List Symbol} {i : Nat} {p : Pattern} (h : ps.occurrence? text i = some p) :
    p ∈ ps.toList ∧ p.OccursAt text i := by
  rw [occurrence?_eq_find?] at h
  exact ⟨List.mem_of_find?_eq_some h, by simpa using List.find?_some h⟩

/-- An occurrence is found exactly where there is one. -/
theorem isSome_occurrence?_iff {text : List Symbol} {i : Nat} : (ps.occurrence? text i).isSome = true ↔ ps.Occurs text i := by
  rw [occurrence?_eq_find?, List.find?_isSome]
  simp [Occurs]

/-- The occurrence that is found in a text is found in every part of the text that holds it: what occurs in the part occurs in
the text, so no earlier pattern takes its place. -/
theorem occurrence?_of_append (before : List Symbol) {text : List Symbol} (after : List Symbol) {i : Nat} {p : Pattern}
    (h : ps.occurrence? (before ++ text ++ after) (before.length + i) = some p) (hp : p.OccursAt text i) :
    ps.occurrence? text i = some p := by
  rw [occurrence?_eq_find?, List.find?_eq_some_iff_append] at h ⊢
  obtain ⟨_, as, bs, hl, hn⟩ := h
  refine ⟨by simpa using hp, as, bs, hl, ?_⟩
  intro q hq
  have hq' := hn q hq
  simp only [Bool.not_eq_true', decide_eq_false_iff_not] at hq' ⊢
  intro ho
  exact hq' ((ho.append_left before).append_right after)

/-! ## What becomes of a text -/

variable (ps)

/-- What becomes of the symbol on a position of a text. -/
def replaceAt (text : List Symbol) (i : Nat) (s : Symbol) : Symbol := ((ps.occurrence? text i).map (·.output)).getD s

theorem replaceAll_eq (text : List Symbol) : ps.replaceAll text = text.zipIdx.map fun (s, i) => ps.replaceAt text i s := by
  simp only [replaceAll, replaceAt, occurrence?_eq_find?]

/-- Replacing keeps the length. -/
@[simp] theorem length_replaceAll (text : List Symbol) : (ps.replaceAll text).length = text.length := by
  simp [replaceAll]

theorem getElem?_replaceAll (text : List Symbol) (i : Nat) :
    (ps.replaceAll text)[i]? = text[i]?.map (ps.replaceAt text i) := by
  simp [replaceAll_eq, List.getElem?_zipIdx, Function.comp_def]

/-- What a machine writes for some positions of a window is that part of what becomes of the window. -/
theorem settle_output (window : List Symbol) (start stop : Nat) :
    (ps.settle window start stop).output = ((ps.replaceAll window).take stop).drop start := by
  simp [settle, replaceAll_eq, List.map_take, List.map_drop, replaceAt, Function.comp_def]

/-- A replaced symbol is among what is written if an occurrence has its focus on one of the positions. -/
theorem settle_replaced (window : List Symbol) (start stop : Nat) :
    (ps.settle window start stop).replaced = true ↔ ∃ i, start ≤ i ∧ i < stop ∧ ps.Occurs window i := by
  have hm : ∀ x : Symbol × Nat, x ∈ (window.zipIdx.take stop).drop start ↔
      start ≤ x.2 ∧ x.2 < stop ∧ window[x.2]? = some x.1 := by
    rintro ⟨s, i⟩
    rw [List.mem_iff_getElem?]
    simp only [List.getElem?_drop, List.getElem?_take, List.getElem?_zipIdx]
    constructor
    · rintro ⟨n, hn⟩
      split at hn
      · simp only [Option.map_eq_some_iff, Prod.mk.injEq, Nat.zero_add] at hn
        obtain ⟨a, ha, rfl, rfl⟩ := hn
        exact ⟨by omega, by omega, ha⟩
      · nomatch hn
    · rintro ⟨h1, h2, h3⟩
      have he : start + (i - start) = i := by omega
      exact ⟨i - start, by simp [he, h2, h3]⟩
  simp only [settle, List.any_map, List.any_eq_true, Function.comp_apply, isSome_occurrence?_iff]
  constructor
  · rintro ⟨⟨s, i⟩, hx, ho⟩
    obtain ⟨h1, h2, _⟩ := (hm _).mp hx
    exact ⟨i, h1, h2, ho⟩
  · rintro ⟨i, h1, h2, p, hp, ho⟩
    have hi := ho.lt_length (Pattern.focus_lt_length hp)
    exact ⟨(window[i], i), (hm _).mpr ⟨h1, h2, List.getElem?_eq_getElem hi⟩, p, hp, ho⟩

variable {ps}

/-- What becomes of a symbol depends on the symbol and on whether some pattern has its focus on it. -/
theorem replaceAt_congr {text text' : List Symbol} {i j : Nat} (hs : text[i]? = text'[j]?)
    (ho : ps.Occurs text i ↔ ps.Occurs text' j) (s : Symbol) : ps.replaceAt text i s = ps.replaceAt text' j s := by
  rw [← isSome_occurrence?_iff, ← isSome_occurrence?_iff] at ho
  unfold replaceAt
  cases hp : ps.occurrence? text i with
  | none =>
    have hq : ps.occurrence? text' j = none := by simpa [hp] using ho
    rw [hq]
  | some p =>
    obtain ⟨q, hq⟩ := Option.isSome_iff_exists.mp (ho.mp (by rw [hp]; rfl))
    rw [hq]
    unfold occurrence? at hp hq
    rw [hs] at hp
    simp only [Option.bind_eq_some_iff, Option.map_eq_some_iff] at hp hq
    obtain ⟨a, ⟨b, hb, ha⟩, c, _, rfl⟩ := hp
    obtain ⟨a', ⟨b', hb', ha'⟩, c', _, rfl⟩ := hq
    rw [hb, Option.some.injEq] at hb'
    rw [← hb', ha, Option.some.injEq] at ha'
    rw [← ha']
    rfl

/-- On positions where occurrences in a text are exactly those in a part of it, the text becomes what the part becomes. -/
theorem replaceAll_segment (before : List Symbol) {text : List Symbol} (after : List Symbol) {i j : Nat} (hj : j ≤ text.length)
    (h : ∀ n, i ≤ n → n < j → (ps.Occurs (before ++ text ++ after) (before.length + n) ↔ ps.Occurs text n)) :
    ((ps.replaceAll (before ++ text ++ after)).take (before.length + j)).drop (before.length + i) =
      ((ps.replaceAll text).take j).drop i := by
  apply List.ext_getElem?
  intro n
  simp only [List.getElem?_drop, List.getElem?_take, Nat.add_assoc, Nat.add_lt_add_iff_left]
  split
  · next hn =>
    have hs : (before ++ text ++ after)[before.length + (i + n)]? = text[i + n]? := by
      rw [List.append_assoc, List.getElem?_append_right (Nat.le_add_right _ _), Nat.add_sub_cancel_left,
        List.getElem?_append_left (by omega)]
    rw [getElem?_replaceAll, getElem?_replaceAll, hs]
    congr 1
    funext s
    exact replaceAt_congr hs (h (i + n) (Nat.le_add_right i n) hn) s
  · rfl

/-- The same for a part at the end of a text. -/
theorem replaceAll_suffix {before text part : List Symbol} (hb : text = before ++ part) {i j : Nat} (hj : j ≤ part.length)
    (h : ∀ n, i ≤ n → (ps.Occurs text (before.length + n) ↔ ps.Occurs part n)) :
    ((ps.replaceAll text).take (before.length + j)).drop (before.length + i) = ((ps.replaceAll part).take j).drop i := by
  have hseg := replaceAll_segment before [] hj (i := i) fun n hn _ => by
    rw [List.append_nil, ← hb]
    exact h n hn
  rwa [List.append_nil, ← hb] at hseg

/-- A symbol that occurs in no pattern brings no occurrence when it is appended. -/
theorem occurs_concat_of_foreign {text : List Symbol} {x : Symbol} (hx : ∀ p ∈ ps.toList, x ∉ p.symbols) (i : Nat) :
    ps.Occurs (text ++ [x]) i ↔ ps.Occurs text i := by
  constructor
  · rintro ⟨p, hp, h⟩
    exact ⟨p, hp, h.of_foreign (hx p hp) (List.ne_nil_of_length_pos (Nat.zero_lt_of_lt (Pattern.focus_lt_length hp)))⟩
  · rintro ⟨p, hp, h⟩
    exact ⟨p, hp, h.append_right [x]⟩

/-- A symbol that occurs in no pattern stays what it is at the end of a text, and nothing before it changes. -/
theorem replaceAll_concat_of_foreign {text : List Symbol} {x : Symbol} (hx : ∀ p ∈ ps.toList, x ∉ p.symbols) :
    ps.replaceAll (text ++ [x]) = ps.replaceAll text ++ [x] := by
  apply List.ext_getElem?
  intro n
  rw [getElem?_replaceAll]
  rcases Nat.lt_trichotomy n text.length with hn | rfl | hn
  · have hs : (text ++ [x])[n]? = text[n]? := List.getElem?_append_left hn
    have hr : (ps.replaceAll text ++ [x])[n]? = (ps.replaceAll text)[n]? :=
      List.getElem?_append_left (by rw [length_replaceAll]; exact hn)
    rw [hs, hr, getElem?_replaceAll]
    congr 1
    funext s
    exact replaceAt_congr hs (occurs_concat_of_foreign hx n) s
  · have hn : ps.occurrence? (text ++ [x]) text.length = none := by
      rw [← Option.not_isSome_iff_eq_none, isSome_occurrence?_iff, occurs_concat_of_foreign hx]
      rintro ⟨p, hp, h⟩
      exact absurd (h.lt_length (Pattern.focus_lt_length hp)) (Nat.lt_irrefl _)
    simp [replaceAt, hn]
  · rw [List.getElem?_eq_none (by simp; omega), List.getElem?_eq_none (by simp; omega)]
    rfl

/-- A symbol that no pattern writes is in what becomes of a text only if it is in the text. -/
theorem mem_of_mem_replaceAll {text : List Symbol} {x : Symbol} (hx : ∀ p ∈ ps.toList, p.output ≠ x)
    (h : x ∈ ps.replaceAll text) : x ∈ text := by
  obtain ⟨i, hi⟩ := List.mem_iff_getElem?.mp h
  rw [getElem?_replaceAll, Option.map_eq_some_iff] at hi
  obtain ⟨s, hs, he⟩ := hi
  unfold replaceAt at he
  cases hp : ps.occurrence? text i with
  | none =>
    rw [hp] at he
    exact List.mem_of_getElem? (hs.trans (congrArg some he))
  | some p =>
    rw [hp] at he
    exact absurd he (hx p (occurrence?_eq_some hp).1)

end Patterns

end ReplaceRules
