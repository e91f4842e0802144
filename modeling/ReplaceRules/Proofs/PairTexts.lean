import ReplaceRules.Proofs.Accepted
import ReplaceRules.Proofs.Scanning

/-!
# The text of a pair

A rule is split at its arrow before its sides are read. The split counts how many tags are open, over the whole rule and without
ever refusing it; the sides are then read each for itself, where tags do not nest. In a text without a bracket error the two agree:
no tag is open by the count exactly if none is open by the bracket state (`Faultless.depth_eq_zero_iff`).

Main statement: a pair is read back from its text exactly if no arrow stands in one of its symbols outside tags, and every pair
that was read from a rule is such a pair (`Pair.parse_text_exact`).
-/

namespace ReplaceRules

open Tokens

/-- The number of open tags after a character, as a rule counts them. -/
def depthAfter (depth : Nat) (c : Char) : Nat := if c = '[' then depth + 1 else if c = ']' then depth - 1 else depth

/-- A text split at an arrow that stands outside tags by the count; `depth` tags are open before the text. -/
structure SplitsAt (depth : Nat) (text before after : List Char) : Prop where
  eq : text = before ++ '-' :: '>' :: after
  outside : before.foldl depthAfter depth = 0

/-- An arrow stands in a text, and no tag is open there. -/
def HasArrow (text : List Char) : Prop := ∃ before after, text = before ++ '-' :: '>' :: after ∧ opens before = false

/-! ## The splits of a text -/

section Splits

variable {depth : Nat} {text before after : List Char}

theorem arrowSplits_arrow (depth : Nat) (before after : List Char) : arrowSplits depth before ('-' :: '>' :: after) =
    if depth = 0 then (before.reverse, after) :: arrowSplits depth ('-' :: before) ('>' :: after)
    else arrowSplits depth ('-' :: before) ('>' :: after) := by
  rw [arrowSplits]
  rfl

/-- A character that begins no arrow only counts. -/
theorem arrowSplits_of_ne {c : Char} {rest : List Char} (h : ∀ after, c :: rest ≠ '-' :: '>' :: after) (depth : Nat)
    (before : List Char) : arrowSplits depth before (c :: rest) = arrowSplits (depthAfter depth c) (c :: before) rest := by
  rw [arrowSplits]
  · rfl
  · rintro after rfl rfl
    exact h after rfl

/-- A text is split at its first character, or further on. -/
theorem splitsAt_cons_iff {c : Char} {rest : List Char} : SplitsAt depth (c :: rest) before after ↔
    (before = [] ∧ c :: rest = '-' :: '>' :: after ∧ depth = 0) ∨
      ∃ read, before = c :: read ∧ SplitsAt (depthAfter depth c) rest read after := by
  constructor
  · rintro ⟨heq, hout⟩
    cases before with
    | nil => exact .inl ⟨rfl, heq, hout⟩
    | cons d read =>
      obtain ⟨rfl, hrest⟩ := List.cons.inj heq
      exact .inr ⟨read, rfl, hrest, hout⟩
  · rintro (⟨rfl, heq, hout⟩ | ⟨read, rfl, heq, hout⟩)
    · exact ⟨heq, hout⟩
    · exact ⟨congrArg (c :: ·) heq, hout⟩

/-- A split is returned at the first character of a text, or further on. -/
theorem mem_arrowSplits_cons_iff {c : Char} {rest x y : List Char} : (x, y) ∈ arrowSplits depth before (c :: rest) ↔
    (x = before.reverse ∧ c :: rest = '-' :: '>' :: y ∧ depth = 0) ∨
      (x, y) ∈ arrowSplits (depthAfter depth c) (c :: before) rest := by
  by_cases harrow : ∃ after, c :: rest = '-' :: '>' :: after
  · obtain ⟨after, heq⟩ := harrow
    obtain ⟨rfl, rfl⟩ := List.cons.inj heq
    have hdepth : depthAfter depth '-' = depth := by simp [depthAfter]
    rw [arrowSplits_arrow, hdepth]
    split
    · next hzero =>
      rw [List.mem_cons, Prod.mk.injEq]
      refine or_congr_left (and_congr_right fun _ => ?_)
      simp [hzero, eq_comm]
    · next hzero => simp [hzero]
  · rw [arrowSplits_of_ne fun after heq => harrow ⟨after, heq⟩]
    constructor
    · exact .inr
    · rintro (⟨_, heq, _⟩ | h)
      · exact absurd ⟨y, heq⟩ harrow
      · exact h

/-- The splits of a text are returned with what has been read before it. -/
theorem mem_arrowSplits_iff {x y : List Char} :
    (x, y) ∈ arrowSplits depth before text ↔ ∃ read, x = before.reverse ++ read ∧ SplitsAt depth text read y := by
  induction text generalizing depth before with
  | nil =>
    constructor
    · intro h
      exact absurd h List.not_mem_nil
    · rintro ⟨read, _, heq, _⟩
      simp at heq
  | cons c rest ih =>
    rw [mem_arrowSplits_cons_iff, ih, List.reverse_cons]
    simp only [splitsAt_cons_iff, List.append_assoc, List.singleton_append]
    constructor
    · rintro (⟨rfl, heq, hout⟩ | ⟨read, rfl, hs⟩)
      · exact ⟨[], (List.append_nil _).symm, .inl ⟨rfl, heq, hout⟩⟩
      · exact ⟨c :: read, rfl, .inr ⟨read, rfl, hs⟩⟩
    · rintro ⟨read, rfl, ⟨rfl, heq, hout⟩ | ⟨read, rfl, hs⟩⟩
      · exact .inl ⟨List.append_nil _, heq, hout⟩
      · exact .inr ⟨read, rfl, hs⟩

/-- No split is returned twice: each is found at another place. -/
theorem nodup_arrowSplits (depth : Nat) (before text : List Char) : (arrowSplits depth before text).Nodup := by
  induction text generalizing depth before with
  | nil => exact List.nodup_nil
  | cons c rest ih =>
    by_cases harrow : ∃ after, c :: rest = '-' :: '>' :: after
    · obtain ⟨after, heq⟩ := harrow
      obtain ⟨rfl, rfl⟩ := List.cons.inj heq
      rw [arrowSplits_arrow]
      split
      · refine List.nodup_cons.mpr ⟨?_, ih depth ('-' :: before)⟩
        intro hmem
        obtain ⟨read, hread, _⟩ := mem_arrowSplits_iff.mp hmem
        simpa using congrArg List.length hread
      · exact ih depth ('-' :: before)
    · rw [arrowSplits_of_ne fun after heq => harrow ⟨after, heq⟩]
      exact ih _ _

/-- One split of a text is its only one. -/
def OnlySplit (text before after : List Char) : Prop :=
  SplitsAt 0 text before after ∧ ∀ before' after', SplitsAt 0 text before' after' → before' = before

theorem arrowSplits_eq_singleton_iff : arrowSplits 0 [] text = [(before, after)] ↔ OnlySplit text before after := by
  have hmem : ∀ {x y}, (x, y) ∈ arrowSplits 0 [] text ↔ SplitsAt 0 text x y := by
    intro x y
    simp [mem_arrowSplits_iff]
  constructor
  · intro h
    refine ⟨hmem.mp (h ▸ List.mem_singleton_self _), fun before' after' hs => ?_⟩
    have hs := hmem.mpr hs
    rw [h, List.mem_singleton] at hs
    exact congrArg Prod.fst hs
  · rintro ⟨hsplit, honly⟩
    refine List.perm_singleton.mp ((List.perm_ext_iff_of_nodup (nodup_arrowSplits 0 [] text) (List.nodup_singleton _)).mpr ?_)
    rintro ⟨x, y⟩
    rw [hmem, List.mem_singleton]
    constructor
    · intro hs
      obtain rfl := honly x y hs
      have heq := hs.eq.symm.trans hsplit.eq
      simpa using heq
    · intro hs
      obtain ⟨rfl, rfl⟩ := Prod.mk.inj hs
      exact hsplit

/-- A blank belongs to no arrow, so an arrow stands before it or after it. -/
theorem splitsAt_blank_iff {a b : List Char} : SplitsAt depth (a ++ ' ' :: b) before after ↔
    (∃ rest, after = rest ++ ' ' :: b ∧ SplitsAt depth a before rest) ∨
      ∃ read, before = a ++ ' ' :: read ∧ SplitsAt (a.foldl depthAfter depth) b read after := by
  have hcount : ∀ read : List Char, (a ++ ' ' :: read).foldl depthAfter depth = read.foldl depthAfter (a.foldl depthAfter depth) := by
    intro read
    simp [depthAfter]
  constructor
  · rintro ⟨heq, hout⟩
    rcases List.append_eq_append_iff.mp heq with ⟨read, rfl, hb⟩ | ⟨rest, rfl, hafter⟩
    · -- The arrow stands behind `a`, and the blank is no part of it.
      rcases read with _ | ⟨c, read⟩
      · simp at hb
      · obtain ⟨rfl, hrest⟩ := List.cons.inj hb
        exact .inr ⟨read, rfl, hrest, (hcount read).symm.trans hout⟩
    · -- It begins in `a`, and both its characters stand before the blank.
      rcases rest with _ | ⟨c, _ | ⟨d, rest⟩⟩
      · simp at hafter
      · simp at hafter
      · obtain ⟨rfl, hrest⟩ := List.cons.inj hafter
        obtain ⟨rfl, htail⟩ := List.cons.inj hrest
        exact .inl ⟨rest, htail, rfl, hout⟩
  · rintro (⟨rest, rfl, heq, hout⟩ | ⟨read, rfl, heq, hout⟩)
    · exact ⟨by simp [heq], hout⟩
    · exact ⟨by simp [heq], (hcount read).trans hout⟩

end Splits

/-! ## The count and the bracket state -/

namespace Tokens

variable {text before after : List Char}

/-- In a text without a fault at most one tag is open at a time. -/
theorem Faultless.depth_take (h : Faultless text) (place : Nat) :
    (text.take place).foldl depthAfter 0 = (opens (text.take place)).toNat := by
  induction place with
  | zero => rfl
  | succ place ih =>
    cases hc : text[place]? with
    | none => simpa [List.take_add_one, hc] using ih
    | some c =>
      have hopen : c = '[' → opens (text.take place) = false := by
        rintro rfl
        by_contra hstate
        exact h _ _ _ (.nested hc (by simpa using hstate))
      have hclose : c = ']' → opens (text.take place) = true := by
        rintro rfl
        by_contra hstate
        exact h _ _ _ (.unexpectedClose hc (by simpa using hstate))
      rw [opens_take_succ hc, List.take_add_one, hc, List.foldl_append, ih]
      by_cases ho : c = '['
      · simp [depthAfter, stateAfter, ho, hopen ho]
      · by_cases hcl : c = ']'
        · simp [depthAfter, stateAfter, hcl, hclose hcl]
        · simp [depthAfter, stateAfter, ho, hcl]

/-- In a text without a fault no tag is open by the count exactly if none is by the bracket state. -/
theorem Faultless.depth_eq_zero_iff (h : Faultless (before ++ after)) : before.foldl depthAfter 0 = 0 ↔ opens before = false := by
  have hdepth := h.depth_take before.length
  rw [List.take_left] at hdepth
  rw [hdepth]
  simp

/-- In a text without a fault the arrows outside tags are the splits of the text. -/
theorem Faultless.hasArrow_iff (h : Faultless text) : HasArrow text ↔ ∃ before after, SplitsAt 0 text before after := by
  constructor
  · rintro ⟨before, after, rfl, hout⟩
    exact ⟨before, after, rfl, h.depth_eq_zero_iff.mpr hout⟩
  · rintro ⟨before, after, rfl, hout⟩
    exact ⟨before, after, rfl, h.depth_eq_zero_iff.mp hout⟩

theorem Faultless.depth_eq (h : Faultless text) : text.foldl depthAfter 0 = 0 := by
  have h' : Faultless (text ++ []) := by rwa [List.append_nil]
  exact h'.depth_eq_zero_iff.mpr h.opens_eq

end Tokens

/-! ## The sides of a rule -/

/-- A side with one symbol is that symbol with something before it that leaves no tag open, and something behind it. -/
theorem exists_of_tokenize_eq_singleton {source : String} {s : Symbol} (h : tokenize source = .ok [s]) :
    ∃ before after, source.toList = before ++ s.text.toList ++ after ∧ before.foldl depthAfter 0 = 0 := by
  obtain ⟨hfaultless, places, _, hmem, hsymbols⟩ := reads_none_iff.mp (scan_eq_iff.mp (tokenize_eq_ok_iff.mp h))
  obtain ⟨⟨first, last⟩, hplaces, rfl⟩ := List.map_eq_singleton_iff.mp hsymbols.symm
  have hst := (hmem first last).mp (hplaces ▸ List.mem_singleton_self _)
  refine ⟨source.toList.take first, source.toList.drop last, ?_, ?_⟩
  · have hdrop : source.toList.drop last = (source.toList.drop first).drop (last - first) := by
      rw [List.drop_drop, Nat.add_sub_cancel' hst.le]
    rw [String.toList_ofList, List.extract, hdrop, List.append_assoc, List.take_append_drop, List.take_append_drop]
  · rw [hfaultless.depth_take, hst.opens_eq]
    rfl

/-- A blank behind a token does not change what is read. -/
theorem tokenize_append_blank {s : Symbol} (h : s.IsToken) : tokenize (String.ofList (s.text.toList ++ [' '])) = .ok [s] := by
  obtain ⟨hne, hs⟩ := isToken_iff.mp h
  obtain ⟨next, hscan⟩ := exists_scan_append none [] 0 hs [' ']
  rw [tokenize_eq_ok_iff, String.toList_ofList, hscan, scan_blank (by decide), complete_reverse_text hne]
  rfl

/-- A blank before a token does not change what is read. -/
theorem tokenize_blank_append {s : Symbol} (h : s.IsToken) : tokenize (String.ofList (' ' :: s.text.toList)) = .ok [s] := by
  have hall : ∀ t ∈ [s], IsWhole t.text.toList := fun t ht => List.mem_singleton.mp ht ▸ isToken_iff.mp h
  rw [tokenize_eq_ok_iff, String.toList_ofList, scan_blank (by decide), ← toList_join_singleton, scan_join hall]
  rfl

/-- A side is its symbol if it has one and this is not reserved; the empty symbol is the missing side. -/
theorem parseSide_of_tokenize {source : String} {s : Symbol} (h : tokenize source = .ok [s]) :
    (s = .empty → parseSide source = .ok none) ∧ (s.isReserved = false → parseSide source = .ok (some s)) := by
  constructor
  · rintro rfl
    simp [parseSide, h]
  · intro hs
    exact parseSide_eq_some_iff.mpr ⟨h, hs⟩

/-- An arrow in the symbol of a side splits the side, too. -/
theorem exists_splitsAt_of_hasArrow {source : String} {s : Symbol} (h : tokenize source = .ok [s])
    (harrow : HasArrow s.text.toList) : ∃ before after, SplitsAt 0 source.toList before after := by
  have htoken : s.IsToken := isToken_of_mem_tokenize h s (List.mem_singleton_self s)
  obtain ⟨before, after, heq, hout⟩ := (faultless_of_tokenize htoken).hasArrow_iff.mp harrow
  obtain ⟨front, back, hsource, hfront⟩ := exists_of_tokenize_eq_singleton h
  refine ⟨front ++ before, after ++ back, by simp [hsource, heq], ?_⟩
  rw [List.foldl_append, hfront, hout]

namespace OnlySplit

variable {text before after : List Char}

/-- No arrow outside tags stands before the only one. -/
theorem not_splitsAt_before (h : OnlySplit text before after) (x y : List Char) : ¬SplitsAt 0 before x y := by
  rintro ⟨rfl, hout⟩
  have hx := h.2 x (y ++ '-' :: '>' :: after) ⟨by simp [h.1.eq], hout⟩
  simpa using congrArg List.length hx

/-- No arrow outside tags stands after the only one. -/
theorem not_splitsAt_after (h : OnlySplit text before after) (x y : List Char) : ¬SplitsAt 0 after x y := by
  rintro ⟨rfl, hout⟩
  have hx := h.2 (before ++ '-' :: '>' :: x) y ⟨by simp [h.1.eq], by simpa [h.1.outside, depthAfter] using hout⟩
  simpa using congrArg List.length hx

end OnlySplit

namespace Pair

/-- A rule is read through its sides, before and after its only arrow outside tags. -/
theorem parse_eq_ofSides {rule : String} {before after : List Char} (h : OnlySplit rule.toList before after) :
    parse rule = ofSides (String.ofList before) (String.ofList after) := by
  unfold parse
  rw [arrowSplits_eq_singleton_iff.mpr h]

/-- A rule with no arrow outside tags, or with several, is refused. -/
theorem parse_eq_malformedRule {rule : String} (h : ∀ before after, ¬OnlySplit rule.toList before after) :
    parse rule = .error (.malformedRule rule) := by
  unfold parse
  split
  · next before after hsplits => exact absurd (arrowSplits_eq_singleton_iff.mp hsplits) (h before after)
  · rfl

theorem toList_text (p : Pair) :
    p.text.toList = p.input.text.toList ++ ' ' :: (['-', '>'] ++ ' ' :: p.output.text.toList) := by
  simp [text]

/-- Both symbols of a pair that has been read are tokens; so is the empty symbol of the missing side. -/
theorem Read.isToken {p : Pair} (h : p.Read) : p.input.IsToken ∧ p.output.IsToken := by
  have hside : ∀ {s : Symbol}, (s = .empty ∨ ∃ source, parseSide source = .ok (some s)) → s.IsToken := by
    rintro s (rfl | ⟨source, hs⟩)
    · exact (by rfl : tokenize "Ø" = .ok [⟨"Ø"⟩])
    · exact isToken_of_mem_tokenize (parseSide_eq_some_iff.mp hs).1 s (List.mem_singleton_self s)
  exact ⟨hside h.sides.1, hside h.sides.2⟩

/-- The text of a pair is split at the arrow between its symbols, and at the arrows in them. -/
theorem splitsAt_text_iff {p : Pair} (hi : p.input.IsToken) {x y : List Char} : SplitsAt 0 p.text.toList x y ↔
    (∃ rest, y = rest ++ ' ' :: (['-', '>'] ++ ' ' :: p.output.text.toList) ∧ SplitsAt 0 p.input.text.toList x rest) ∨
      (x = p.input.text.toList ++ [' '] ∧ y = ' ' :: p.output.text.toList) ∨
      ∃ read, x = p.input.text.toList ++ ' ' :: (['-', '>'] ++ ' ' :: read) ∧ SplitsAt 0 p.output.text.toList read y := by
  have harrow : ∀ {x y}, SplitsAt 0 ['-', '>'] x y ↔ x = [] ∧ y = [] := by
    intro x y
    constructor
    · rintro ⟨heq, _⟩
      have hlength := congrArg List.length heq
      simp only [List.length_cons, List.length_nil, List.length_append] at hlength
      exact ⟨List.eq_nil_of_length_eq_zero (by omega), List.eq_nil_of_length_eq_zero (by omega)⟩
    · rintro ⟨rfl, rfl⟩
      exact ⟨rfl, rfl⟩
  have hdepth : ['-', '>'].foldl depthAfter 0 = 0 := by decide
  rw [toList_text, splitsAt_blank_iff, (faultless_of_tokenize hi).depth_eq]
  refine or_congr_right ?_
  simp only [splitsAt_blank_iff, hdepth, harrow]
  constructor
  · rintro ⟨read, rfl, ⟨rest, rfl, rfl, rfl⟩ | ⟨read, rfl, hs⟩⟩
    · exact .inl ⟨rfl, rfl⟩
    · exact .inr ⟨read, rfl, hs⟩
  · rintro (⟨rfl, rfl⟩ | ⟨read, rfl, hs⟩)
    · exact ⟨[], rfl, .inl ⟨[], rfl, rfl, rfl⟩⟩
    · exact ⟨_, rfl, .inr ⟨read, rfl, hs⟩⟩

/-- No arrow stands in a symbol of a pair outside tags. -/
def IsArrowless (p : Pair) : Prop := ¬HasArrow p.input.text.toList ∧ ¬HasArrow p.output.text.toList

/-- The arrow of a pair's text is its only one exactly if no arrow stands in the symbols of the pair. -/
theorem Read.onlySplit_iff {p : Pair} (h : p.Read) {before after : List Char} : OnlySplit p.text.toList before after ↔
    p.IsArrowless ∧ before = p.input.text.toList ++ [' '] ∧ after = ' ' :: p.output.text.toList := by
  obtain ⟨hi, ho⟩ := h.isToken
  have hown : SplitsAt 0 p.text.toList (p.input.text.toList ++ [' ']) (' ' :: p.output.text.toList) :=
    (splitsAt_text_iff hi).mpr (.inr (.inl ⟨rfl, rfl⟩))
  constructor
  · rintro ⟨hsplit, honly⟩
    obtain rfl := honly _ _ hown
    refine ⟨⟨?_, ?_⟩, rfl, ?_⟩
    · rw [(faultless_of_tokenize hi).hasArrow_iff]
      rintro ⟨x, rest, hs⟩
      have hx := honly _ _ ((splitsAt_text_iff hi).mpr (.inl ⟨rest, rfl, hs⟩))
      have hlength := congrArg List.length hs.eq
      simp [hx] at hlength
    · rw [(faultless_of_tokenize ho).hasArrow_iff]
      rintro ⟨read, y, hs⟩
      have hx := honly _ _ ((splitsAt_text_iff hi).mpr (.inr (.inr ⟨read, rfl, hs⟩)))
      simpa using congrArg List.length hx
    · simpa using hsplit.eq.symm.trans hown.eq
  · rintro ⟨⟨hni, hno⟩, rfl, rfl⟩
    refine ⟨hown, fun x y hs => ?_⟩
    rcases (splitsAt_text_iff hi).mp hs with ⟨rest, _, hs⟩ | ⟨rfl, _⟩ | ⟨read, _, hs⟩
    · exact absurd ((faultless_of_tokenize hi).hasArrow_iff.mpr ⟨_, _, hs⟩) hni
    · rfl
    · exact absurd ((faultless_of_tokenize ho).hasArrow_iff.mpr ⟨_, _, hs⟩) hno

/-- A side of a pair that has been read is the symbol of that side, or missing. -/
theorem parseSide_of_ofSides {input output : String} {p : Pair} (h : ofSides input output = .ok p) :
    (p.input = .empty ∨ parseSide input = .ok (some p.input)) ∧ (p.output = .empty ∨ parseSide output = .ok (some p.output)) := by
  unfold ofSides at h
  cases hi : parseSide input with
  | error e => simp [hi] at h
  | ok i =>
    cases ho : parseSide output with
    | error e => simp [hi, ho] at h
    | ok o =>
      cases i <;> cases o <;> simp only [hi, ho, Except.ok.injEq, reduceCtorEq] at h <;> subst h
      · exact ⟨.inl rfl, .inr rfl⟩
      · exact ⟨.inr rfl, .inl rfl⟩
      · exact ⟨.inr rfl, .inr rfl⟩

/-- No arrow stands in the symbols of a pair that was read from a rule: it would have been another arrow of the rule. -/
theorem isArrowless_of_parse {rule : String} {p : Pair} (h : parse rule = .ok p) : p.IsArrowless := by
  have hmissing : ¬HasArrow Symbol.empty.text.toList := by
    rintro ⟨before, after, heq, _⟩
    have hlength := congrArg List.length heq
    simp [Symbol.empty] at hlength
    omega
  have hside : ∀ {side : List Char} {s : Symbol}, (∀ x y, ¬SplitsAt 0 side x y) →
      (s = .empty ∨ parseSide (String.ofList side) = .ok (some s)) → ¬HasArrow s.text.toList := by
    rintro side s hnone (rfl | hs) harrow
    · exact hmissing harrow
    · obtain ⟨x, y, hsplit⟩ := exists_splitsAt_of_hasArrow (parseSide_eq_some_iff.mp hs).1 harrow
      rw [String.toList_ofList] at hsplit
      exact hnone x y hsplit
  by_cases hs : ∃ before after, OnlySplit rule.toList before after
  · obtain ⟨before, after, honly⟩ := hs
    rw [parse_eq_ofSides honly] at h
    obtain ⟨hi, ho⟩ := parseSide_of_ofSides h
    exact ⟨hside honly.not_splitsAt_before hi, hside honly.not_splitsAt_after ho⟩
  · rw [parse_eq_malformedRule fun before after honly => hs ⟨before, after, honly⟩] at h
    nomatch h

/-- The sides of a pair's text are read as the symbols of the pair. -/
theorem Read.ofSides_text {p : Pair} (h : p.Read) :
    ofSides (String.ofList (p.input.text.toList ++ [' '])) (String.ofList (' ' :: p.output.text.toList)) = .ok p := by
  obtain ⟨hi, ho⟩ := h.isToken
  have hinput := parseSide_of_tokenize (tokenize_append_blank hi)
  have houtput := parseSide_of_tokenize (tokenize_blank_append ho)
  rcases h.sides_eq with ⟨i, o, rfl, ⟨_, hsi⟩, ⟨_, hso⟩⟩ | ⟨i, rfl, ⟨_, hsi⟩⟩ | ⟨o, rfl, ⟨_, hso⟩⟩
  · rw [ofSides, hinput.2 (not_isReserved_of_parseSide hsi), houtput.2 (not_isReserved_of_parseSide hso)]
    rfl
  · rw [ofSides, hinput.2 (not_isReserved_of_parseSide hsi), houtput.1 rfl]
    rfl
  · rw [ofSides, hinput.1 rfl, houtput.2 (not_isReserved_of_parseSide hso)]
    rfl

/-- A pair is read back from its text exactly if no arrow stands in one of its symbols outside tags; otherwise the text is refused
as a rule that is malformed. A pair that was read from a rule is always read back, whichever way the rule was written: a missing
side is shown, and read, as the empty symbol. -/
theorem parse_text_exact :
    (∀ p : Pair, p.Read →
      (parse p.text = .ok p ↔ ¬HasArrow p.input.text.toList ∧ ¬HasArrow p.output.text.toList) ∧
      (HasArrow p.input.text.toList ∨ HasArrow p.output.text.toList → parse p.text = .error (.malformedRule p.text))) ∧
    (∀ rule p, parse rule = .ok p → parse p.text = .ok p) ∧
    (∀ i, (Pair.deletion i).text = i.text ++ " -> Ø") ∧ ∀ o, (Pair.insertion o).text = "Ø -> " ++ o.text := by
  have hread : ∀ {p : Pair}, p.Read → p.IsArrowless → parse p.text = .ok p := by
    intro p hp ha
    rw [parse_eq_ofSides (hp.onlySplit_iff.mpr ⟨ha, rfl, rfl⟩), hp.ofSides_text]
  have hmalformed : ∀ {p : Pair}, p.Read → ¬p.IsArrowless → parse p.text = .error (.malformedRule p.text) := by
    intro p hp ha
    exact parse_eq_malformedRule fun before after hs => ha (hp.onlySplit_iff.mp hs).1
  refine ⟨?_, ?_, ?_, ?_⟩
  · intro p hp
    refine ⟨⟨fun h => ?_, hread hp⟩, fun h => hmalformed hp fun ha => ?_⟩
    · by_contra ha
      rw [hmalformed hp ha] at h
      nomatch h
    · exact h.elim ha.1 ha.2
  · intro rule p h
    exact hread (read_of_parse h) (isArrowless_of_parse h)
  · intro i
    exact String.append_assoc
  · intro o
    rfl

/-- Arrows inside tags are no arrows of the rule, and the blanks there stay. Between the sides of a pair that is not read from a
rule, there may be a symbol with an arrow: its text is refused. -/
theorem parse_text_exact_tags :
    parse " a[x->y] ->[-> ]b" = .ok (.assimilation ⟨"a[x->y]"⟩ ⟨"[-> ]b"⟩) ∧
      parse "a[x->y] -> [-> ]b" = .ok (.assimilation ⟨"a[x->y]"⟩ ⟨"[-> ]b"⟩) ∧
      (Pair.assimilation ⟨"a->b"⟩ ⟨"c"⟩).Read ∧
      parse "a->b -> c" = .error (.malformedRule "a->b -> c") := by
  obtain ⟨hpairs, hrules, _, _⟩ := parse_text_exact
  have hrule : parse " a[x->y] ->[-> ]b" = .ok (.assimilation ⟨"a[x->y]"⟩ ⟨"[-> ]b"⟩) := by rfl
  have hread : (Pair.assimilation ⟨"a->b"⟩ ⟨"c"⟩).Read := ⟨"a->b", "c", by rfl⟩
  have harrow : HasArrow "a->b".toList := ⟨['a'], ['b'], by rfl, by rfl⟩
  exact ⟨hrule, hrules _ _ hrule, hread, (hpairs _ hread).2 (.inl harrow)⟩

end Pair

end ReplaceRules
