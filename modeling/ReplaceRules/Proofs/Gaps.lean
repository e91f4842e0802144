import ReplaceRules.Proofs.Agreement

/-!
# Gaps

Rules that insert look at the gaps of an input: before its first symbol, between every two, and after its last. A machine reads a
gap as an empty symbol, and looks for contexts whose sides have gaps, too. Here gaps are counted instead, and contexts are taken
as they are written.

Interleaving loses nothing: one interleaved list begins another exactly if it does so without the gaps
(`interleave_prefix_iff`), and it does not matter from which end gaps are put in (`reverse_interleave`).

Main statement: the machine of an accepted set of rules that insert puts the inserted symbol once into each gap around which a
context stands, and changes nothing else (`compile_inserts`).
-/

namespace ReplaceRules

/-! ## Interleaved lists -/

/-- A gap stands behind the first symbol, if there are others. -/
theorem interleave_cons (s : Symbol) {l : List Symbol} (h : l ≠ []) : interleave (s :: l) = s :: .empty :: interleave l := by
  obtain ⟨t, rest, rfl⟩ := List.exists_cons_of_ne_nil h
  rfl

theorem interleave_concat {l : List Symbol} (h : l ≠ []) (s : Symbol) : interleave (l ++ [s]) = interleave l ++ [.empty, s] := by
  fun_induction interleave l with
  | case1 => exact absurd rfl h
  | case2 t => rfl
  | case3 t u rest ih => rw [List.cons_append, interleave_cons t (by simp), ih (List.cons_ne_nil u rest)]; rfl

/-- Gaps are put in from the end as from the front. -/
theorem reverse_interleave (l : List Symbol) : (interleave l).reverse = interleave l.reverse := by
  fun_induction interleave l with
  | case1 => rfl
  | case2 t => rfl
  | case3 t u rest ih =>
    have hsplit : (t :: u :: rest).reverse = (u :: rest).reverse ++ [t] := List.reverse_cons
    rw [hsplit, interleave_concat (by simp), ← ih, List.reverse_cons, List.reverse_cons, List.append_assoc]
    rfl

/-- One list begins another exactly if it does so with gaps. -/
theorem interleave_prefix_iff {l m : List Symbol} : interleave l <+: interleave m ↔ l <+: m := by
  fun_induction interleave l generalizing m with
  | case1 => simp
  | case2 t =>
    cases m with
    | nil => simp [interleave]
    | cons u rest => cases rest <;> simp [interleave]
  | case3 t u rest ih =>
    cases m with
    | nil => simp [interleave]
    | cons v rest' =>
      cases rest' with
      | nil => simp [interleave]
      | cons w rest' =>
        rw [interleave_cons v (List.cons_ne_nil w rest')]
        simp only [List.cons_prefix_cons, ih, true_and]

namespace RuleSet

/-! ## Gaps in which a symbol is inserted -/

/-- Some context, as it is written, stands around a gap of an input, or the rules are free. A gap is known by the number of
symbols before it. -/
def FillsGap (r : RuleSet) (input : List Symbol) (gap : Nat) : Prop :=
  r.contexts = [] ∨ ∃ c ∈ r.contexts, c.left <:+ .boundary :: input.take gap ∧ c.right <+: input.drop gap ++ [.boundary]

instance (r : RuleSet) (input : List Symbol) (gap : Nat) : Decidable (r.FillsGap input gap) :=
  inferInstanceAs (Decidable (_ ∨ ∃ c ∈ r.contexts, _))

/-- An input with a symbol put into each gap around which a context stands. -/
def fillGaps (r : RuleSet) (inserted : Symbol) (input : List Symbol) : List Symbol :=
  (List.range (input.length + 1)).flatMap fun gap =>
    (if r.FillsGap input gap then [inserted] else []) ++ input[gap]?.toList

variable {r : RuleSet}

/-- A context applies to a gap if it stands around the gap as it is written. -/
theorem appliesToGap_iff {input : List Symbol} {gap : Nat} :
    r.appliesToGap (input.take gap).reverse (input.drop gap) = true ↔ r.FillsGap input gap := by
  simp only [appliesToGap, FillsGap, Bool.or_eq_true, List.isEmpty_iff, List.any_eq_true, Bool.and_eq_true,
    List.isPrefixOf_iff_prefix, ← List.reverse_cons, List.reverse_prefix]

/-- Symbols are inserted gap by gap. -/
theorem insertInto_eq_flatMap (x : Symbol) (before after : List Symbol) :
    r.insertInto x before after = (List.range (after.length + 1)).flatMap fun gap =>
      (if r.appliesToGap ((after.take gap).reverse ++ before) (after.drop gap) then [x] else []) ++ after[gap]?.toList := by
  induction after generalizing before with
  | nil => simp [insertInto]
  | cons s after ih =>
    rw [insertInto, ih, List.length_cons, List.range_succ_eq_map (n := after.length + 1), List.flatMap_cons, List.flatMap_map]
    simp

/-- Going over the symbols from the left fills the gaps. -/
theorem insertInto_eq_fillGaps (x : Symbol) (input : List Symbol) : r.insertInto x [] input = r.fillGaps x input := by
  simp only [insertInto_eq_flatMap, fillGaps, List.append_nil, appliesToGap_iff]

/-! ## Gaps as empty symbols -/

/-- Contexts with gaps stand around an empty symbol where contexts as they are written stand around the gap. -/
theorem applies_interleave (hi : r.inserts = true) (before after : List Symbol) :
    r.applies (interleave (before ++ [.boundary])) (interleave (after ++ [.boundary])) = r.appliesToGap before after := by
  have hgap : ∀ c : Context,
      (c.interleaved.left.reverse.isPrefixOf (interleave (before ++ [.boundary])) &&
        c.interleaved.right.isPrefixOf (interleave (after ++ [.boundary]))) =
      (c.left.reverse.isPrefixOf (before ++ [.boundary]) && c.right.isPrefixOf (after ++ [.boundary])) := by
    intro c
    rw [Bool.eq_iff_iff]
    simp only [Context.interleaved, reverse_interleave, Bool.and_eq_true, List.isPrefixOf_iff_prefix, interleave_prefix_iff]
  unfold applies environments matchingContexts appliesToGap
  rw [if_pos hi]
  cases r.contexts with
  | nil => rfl
  | cons c rest =>
    rw [List.isEmpty_cons, if_neg Bool.false_ne_true, List.any_map, Bool.false_or]
    exact congrArg (List.any (c :: rest)) (funext hgap)

section Inserting

variable {x : Symbol} (hp : r.pairs = [.insertion x])

include hp

theorem inserts_eq_true : r.inserts = true := by
  rw [inserts, hp]
  rfl

/-- A gap is filled where a context stands around it. -/
theorem replaceOne_empty (before after : List Symbol) :
    r.replaceOne before .empty after = if r.applies before after then x else .empty := by
  rw [replaceOne, hp]
  rfl

/-- What is no gap stays as it is. -/
theorem replaceOne_of_ne_empty {s : Symbol} (hs : s ≠ .empty) (before after : List Symbol) :
    r.replaceOne before s after = s := by
  have hne : ¬Symbol.empty = s := fun h => hs h.symm
  rw [replaceOne, hp]
  simp [Pair.input, hne]

/-- In a framed input with gaps, the inserted symbol takes the place of gaps, and the sentinels are dropped. What becomes of one gap
does not depend on the rest, so the induction goes over the symbols behind it. -/
theorem filter_replaceEach_interleave (hx : x.isSentinel = false) (before : List Symbol) {after : List Symbol}
    (ha : ∀ s ∈ after, s.isSentinel = false) :
    (r.replaceEach (interleave (before ++ [.boundary])) (.empty :: interleave (after ++ [.boundary]))).filter (!·.isSentinel) =
      r.insertInto x before after := by
  have hgap : ∀ before after : List Symbol,
      [r.replaceOne (interleave (before ++ [.boundary])) .empty (interleave (after ++ [.boundary]))].filter (!·.isSentinel) =
        if r.appliesToGap before after then [x] else [] := by
    intro before after
    rw [replaceOne_empty hp, applies_interleave (inserts_eq_true hp)]
    split
    · simp [hx]
    · rfl
  induction after generalizing before with
  | nil =>
    have hb : r.replaceOne (.empty :: interleave (before ++ [.boundary])) .boundary [] = .boundary :=
      replaceOne_of_ne_empty hp (by decide) _ _
    rw [replaceEach, ← List.singleton_append, List.filter_append, hgap, insertInto]
    simp only [List.nil_append, interleave, replaceEach, hb]
    exact List.append_nil _
  | cons s after ih =>
    have hs := ha s List.mem_cons_self
    have hse : s ≠ .empty := by
      rintro rfl
      exact absurd hs (by decide)
    have hrest := ih (s :: before) fun t ht => ha t (List.mem_cons_of_mem s ht)
    rw [List.cons_append, interleave_cons s (by simp)] at hrest
    rw [replaceEach, ← List.singleton_append, List.filter_append, hgap, List.cons_append, interleave_cons s (by simp), replaceEach,
      replaceOne_of_ne_empty hp hse, List.filter_cons_of_pos (by simp [hs]), hrest, insertInto]

/-- What rules that insert make of an input without sentinels. -/
theorem replace_eq_fillGaps (hx : x.isSentinel = false) {input : List Symbol} (hinput : ∀ s ∈ input, s.isSentinel = false) :
    r.replace [] input = r.fillGaps x input := by
  have hframe : r.frame input = .boundary :: .empty :: interleave (input ++ [.boundary]) := by
    rw [frame, if_pos (inserts_eq_true hp), List.cons_append, interleave_cons _ (by simp)]
  rw [replace, List.nil_append, hframe, replaceEach, replaceOne_of_ne_empty hp (by decide), List.filter_cons_of_neg (by decide),
    ← insertInto_eq_fillGaps]
  exact filter_replaceEach_interleave hp hx [] hinput

end Inserting

end RuleSet

namespace Transducer

/-- The machine of an accepted set of rules that insert: the one symbol it inserts is put once into each gap of an input around
which some context stands as it is written, or into each gap if the rules are free; the symbols of the input stay what and where
they are, and nothing else is written. This holds of every list of symbols without sentinels, and of every text that is read. -/
theorem compile_inserts {r : RuleSet} (h : r.Accepted) (hi : r.inserts = true) :
    ∃ x t, r.pairs = [.insertion x] ∧ compile r = .ok t ∧
      (∀ input, (∀ s ∈ input, s.isSentinel = false) → t.replaceSymbols input = r.fillGaps x input) ∧
      ∀ text out, t.replace text = .ok out ↔
        ∃ symbols, tokenize text = .ok symbols ∧ (∀ s ∈ symbols, s.isSentinel = false ∧ s ≠ .marker) ∧
          out = join (r.fillGaps x symbols) := by
  obtain ⟨x, hp⟩ := h.exists_pairs_eq hi
  have hx : x.isSentinel = false := (h.valid.pairs_read (.insertion x) (hp ▸ List.mem_cons_self)).isSentinel_insertion
  obtain ⟨t, hc, ht⟩ := exists_compile_eq_ok h.valid
  have hfills : ∀ input, (∀ s ∈ input, s.isSentinel = false) → t.replaceSymbols input = r.fillGaps x input := by
    intro input hinput
    rw [ht, RuleSet.replace_eq_fillGaps hp hx hinput]
  refine ⟨x, t, hp, hc, hfills, ?_⟩
  intro text out
  rw [replace_eq_ok_iff]
  refine exists_congr fun symbols => and_congr_right fun _ => and_congr_right fun hall => ?_
  rw [hfills symbols fun s hs => (hall s hs).1]

/-- Contexts stand around the gaps before the first and after the last symbol, and around two of those between. -/
theorem compile_inserts_between :
    ∃ r t, RuleSet.ofRules ["-> x"] ["a _ b", "$ _ a", "b _ $"] = .ok r ∧ compile r = .ok t ∧
      t.replace "a b a a b" = .ok "x a x b a a x b x" ∧ t.replace "" = .ok "" := by
  have hr : RuleSet.ofRules ["-> x"] ["a _ b", "$ _ a", "b _ $"] =
      .ok ⟨[.insertion ⟨"x"⟩], [⟨[⟨"a"⟩], [⟨"b"⟩]⟩, ⟨[.boundary], [⟨"a"⟩]⟩, ⟨[⟨"b"⟩], [.boundary]⟩]⟩ := by rfl
  obtain ⟨x, t, hp, hc, _, htext⟩ := compile_inserts (.ofRules hr) (by decide)
  obtain rfl : ⟨"x"⟩ = x := by simpa using hp
  refine ⟨_, t, hr, hc, ?_, ?_⟩
  · exact (htext _ _).mpr ⟨[⟨"a"⟩, ⟨"b"⟩, ⟨"a"⟩, ⟨"a"⟩, ⟨"b"⟩], by rfl, by decide, by decide +kernel⟩
  · exact (htext _ _).mpr ⟨[], by rfl, by decide, by decide +kernel⟩

end Transducer

end ReplaceRules
