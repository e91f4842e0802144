import ReplaceRules.Proofs.Agreement
import ReplaceRules.Proofs.Tokens

/-!
# Cascades

A cascade gives the text that one machine makes to the next one, which reads it again. Nothing is lost on the way: whatever a
machine writes comes from the input, from an output of a pair or from the initial output, and all of these were read from a text.
What is reserved in a text is refused where it is read or taken out where it is written; only a marker in an initial output is
neither.

Main statement: each machine of a cascade reads exactly the symbols that the one before it wrote, so that the cascade does on
texts what its machines do on lists of symbols, one after the other (`compile_passesOn`).
-/

namespace ReplaceRules

/-- A symbol that is read back from its text, and that no machine refuses. -/
structure Symbol.Plain (s : Symbol) : Prop where
  isToken : s.IsToken
  isSentinel_eq : s.isSentinel = false
  ne_marker : s ≠ .marker

/-- What is read from a text is plain if none of it is refused. -/
theorem plain_of_tokenize {source : String} {symbols : List Symbol} (h : tokenize source = .ok symbols)
    (hs : ∀ s ∈ symbols, s.isSentinel = false ∧ s ≠ .marker) : ∀ s ∈ symbols, s.Plain := by
  intro s hm
  exact ⟨isToken_of_mem_tokenize h s hm, (hs s hm).1, (hs s hm).2⟩

/-! ## Where symbols come from -/

/-- A side of a pair is plain unless it is missing. -/
theorem plain_of_parseSide {source : String} {s : Symbol} (h : parseSide source = .ok (some s)) : s.Plain := by
  obtain ⟨hread, hr⟩ := parseSide_eq_some_iff.mp h
  simp only [Symbol.isReserved, Bool.or_eq_false_iff, decide_eq_false_iff_not] at hr
  obtain ⟨⟨⟨_, hb⟩, he⟩, hm⟩ := hr
  exact ⟨isToken_of_mem_tokenize hread s (List.mem_singleton_self s), by simp [Symbol.isSentinel, hb, he], hm⟩

namespace RuleSet

variable {r : RuleSet}

/-- What a symbol becomes is the symbol itself or the output of a pair. -/
theorem replaceOne_eq_or (before after : List Symbol) (s : Symbol) :
    r.replaceOne before s after = s ∨ ∃ p ∈ r.pairs, r.replaceOne before s after = p.output := by
  unfold replaceOne
  split
  · next p hp =>
    split
    · exact Or.inr ⟨p, List.mem_of_find?_eq_some hp, rfl⟩
    · exact Or.inl rfl
  · exact Or.inl rfl

/-- A replaced text has symbols of the text, and outputs. -/
theorem mem_replaceEach {before text : List Symbol} {s : Symbol} (h : s ∈ r.replaceEach before text) :
    s ∈ text ∨ ∃ p ∈ r.pairs, s = p.output := by
  induction text generalizing before with
  | nil => exact absurd h List.not_mem_nil
  | cons t after ih =>
    rcases List.mem_cons.mp h with rfl | h
    · exact (replaceOne_eq_or before after t).imp_left fun he => List.mem_cons.mpr (Or.inl he)
    · exact (ih h).imp_left (List.mem_cons_of_mem t)

/-- The frame of an input adds sentinels only. -/
theorem mem_frame {input : List Symbol} {s : Symbol} (h : s ∈ r.frame input) : s.isSentinel = true ∨ s ∈ input := by
  have hframed : ∀ s ∈ Symbol.boundary :: input ++ [.boundary], s.isSentinel = true ∨ s ∈ input := by
    intro s hs
    simp only [List.cons_append, List.mem_cons, List.mem_append, List.not_mem_nil, or_false] at hs
    rcases hs with rfl | hs | rfl
    · exact Or.inl (by decide)
    · exact Or.inr hs
    · exact Or.inl (by decide)
  unfold frame at h
  split at h
  · rcases mem_interleave h with rfl | h
    · exact Or.inl (by decide)
    · exact hframed s h
  · exact hframed s h

/-- What the rules write is no sentinel. It is in the initial output or in the input, or some pair writes it. -/
theorem mem_replace {initialOutput input : List Symbol} {s : Symbol} (h : s ∈ r.replace initialOutput input) :
    s.isSentinel = false ∧ (s ∈ initialOutput ∨ s ∈ input ∨ ∃ p ∈ r.pairs, s = p.output) := by
  obtain ⟨hm, hs⟩ := List.mem_filter.mp h
  have hs : s.isSentinel = false := by simpa using hs
  refine ⟨hs, ?_⟩
  rcases List.mem_append.mp hm with hm | hm
  · exact Or.inl hm
  · rcases mem_replaceEach hm with hm | hm
    · exact Or.inr (Or.inl ((mem_frame hm).resolve_left (by simp [hs])))
    · exact Or.inr (Or.inr hm)

/-- What the rules of a valid set write is plain, if the initial output and the input are. -/
theorem Valid.plain_replace (hr : r.Valid) {initialOutput input : List Symbol}
    (ho : ∀ s ∈ initialOutput, s.isSentinel = false → s.Plain) (hi : ∀ s ∈ input, s.Plain) :
    ∀ s ∈ r.replace initialOutput input, s.Plain := by
  intro s hs
  obtain ⟨hsentinel, hm | hm | ⟨p, hp, rfl⟩⟩ := mem_replace hs
  · exact ho s hm hsentinel
  · exact hi s hm
  · rcases (hr.pairs_read p hp).sides.2 with he | ⟨source, hside⟩
    · rw [he] at hsentinel
      nomatch hsentinel
    · exact plain_of_parseSide hside

/-! ## Two sets of rules -/

/-- A rule that writes a tag with blanks inside. -/
def tagging : RuleSet := ⟨[.assimilation ⟨"B"⟩ ⟨"[tns =  pst]"⟩], []⟩

/-- A rule that inserts behind that tag. -/
def behindTag : RuleSet := ⟨[.insertion ⟨"x"⟩], [⟨[⟨"[tns =  pst]"⟩], []⟩]⟩

theorem accepted_tagging : tagging.Accepted :=
  .ofRules (by rfl : ofRules ["B -> [tns =  pst]"] [] = .ok tagging)

theorem accepted_behindTag : behindTag.Accepted :=
  .ofRules (by rfl : ofRules ["-> x"] ["[tns =  pst] _"] = .ok behindTag)

end RuleSet

namespace Transducer

/-! ## One stage -/

/-- What a machine makes of plain symbols is plain if its initial output has no marker. -/
theorem MadeFrom.plain_replaceSymbols {t : Transducer} {r : RuleSet} (h : MadeFrom r t) (hr : r.Valid)
    (hm : .marker ∉ t.initialOutput) {input : List Symbol} (hi : ∀ s ∈ input, s.Plain) :
    ∀ s ∈ t.replaceSymbols input, s.Plain := by
  obtain ⟨hrules, hrealizes⟩ := h.realizes hr
  obtain ⟨source, hsource⟩ := h.exists_tokenize
  rw [hrealizes.replaceSymbols_eq hrules]
  refine hr.plain_replace ?_ hi
  intro s hs hsentinel
  exact ⟨isToken_of_mem_tokenize hsource s hs, hsentinel, fun he => hm (he ▸ hs)⟩

/-- A machine that can stand in a cascade: it is made of an accepted set of rules, and its initial output has no marker. -/
def FitsCascade (t : Transducer) : Prop := (∃ r : RuleSet, r.Accepted ∧ MadeFrom r t) ∧ .marker ∉ t.initialOutput

/-- A machine that was compiled fits. -/
theorem FitsCascade.compile {t : Transducer} {r : RuleSet} (hr : r.Accepted) (h : Transducer.compile r = .ok t) :
    t.FitsCascade :=
  ⟨⟨r, hr, .compile h⟩, by rw [initialOutput_of_compile h]; exact List.not_mem_nil⟩

theorem FitsCascade.withInitialOutput {t t' : Transducer} {text : String} (ht : t.FitsCascade)
    (h : t.withInitialOutput text = .ok t') (hm : .marker ∉ t'.initialOutput) : t'.FitsCascade := by
  obtain ⟨⟨r, hr, hmade⟩, _⟩ := ht
  exact ⟨⟨r, hr, .withInitialOutput hmade h⟩, hm⟩

/-- What a fitting machine makes of plain symbols is plain. -/
theorem FitsCascade.plain_replaceSymbols {t : Transducer} (h : t.FitsCascade) {input : List Symbol}
    (hi : ∀ s ∈ input, s.Plain) : ∀ s ∈ t.replaceSymbols input, s.Plain := by
  obtain ⟨⟨r, hr, hmade⟩, hm⟩ := h
  exact hmade.plain_replaceSymbols hr.valid hm hi

/-! ## All stages -/

/-- What the machines of a cascade make of a text, each reading what the one before it wrote. -/
def replaceInTurn : List Transducer → String → Except TransducerError String
  | [], text => .ok text
  | t :: ts, text =>
    match t.replace text with
    | .error e => .error e
    | .ok out => replaceInTurn ts out

/-- What they make of a list of symbols, without any text in between. -/
def replaceSymbolsInTurn (ts : List Transducer) (input : List Symbol) : List Symbol :=
  ts.foldl (fun symbols t => t.replaceSymbols symbols) input

/-- The stages of a cascade pass on what they write: the text is read as the given symbols, the first machine runs on it and
accepts it, and the text of what it has written, which the other machines pass on, is read as exactly that. -/
inductive PassesOn : List Transducer → String → List Symbol → Prop where
  | last {text : String} {symbols : List Symbol} (hread : tokenize text = .ok symbols) : PassesOn [] text symbols
  | stage {t : Transducer} {ts : List Transducer} {text : String} {symbols : List Symbol} {trace : Trace}
      (hread : tokenize text = .ok symbols) (hrun : t.runText text = .ok trace)
      (hreplace : t.replace text = .ok (join trace.output)) (houtput : trace.output = t.replaceSymbols symbols)
      (hnext : PassesOn ts (join trace.output) trace.output) : PassesOn (t :: ts) text symbols

/-- Plain symbols are passed on: what a stage writes is plain again, so the next stage reads it back and refuses nothing. -/
theorem passesOn_of_plain {ts : List Transducer} (h : ∀ t ∈ ts, t.FitsCascade) {text : String} {symbols : List Symbol}
    (hread : tokenize text = .ok symbols) (hs : ∀ s ∈ symbols, s.Plain) : PassesOn ts text symbols := by
  induction ts generalizing text symbols with
  | nil => exact .last hread
  | cons t ts ih =>
    have hrun : t.runText text = .ok (t.run symbols) :=
      t.runText_eq_ok_iff.mpr ⟨symbols, hread, fun s hm => ⟨(hs s hm).isSentinel_eq, (hs s hm).ne_marker⟩, rfl⟩
    have hreplace : t.replace text = .ok (join (t.run symbols).output) := t.replace_eq_ok_iff_runText.mpr ⟨_, hrun, rfl⟩
    have hplain := (h t List.mem_cons_self).plain_replaceSymbols hs
    have hback := tokenize_join fun s hm => (hplain s hm).isToken
    exact .stage hread hrun hreplace rfl (ih (fun u hu => h u (List.mem_cons_of_mem t hu)) hback hplain)

/-- Passing on, the machines make of a text the text of what they make of its symbols. -/
theorem PassesOn.replaceInTurn_eq {ts : List Transducer} {text : String} {symbols : List Symbol} (h : PassesOn ts text symbols)
    (htext : ts = [] → text = join symbols) : replaceInTurn ts text = .ok (join (replaceSymbolsInTurn ts symbols)) := by
  induction h with
  | last hread => exact congrArg Except.ok (htext rfl)
  | stage hread hrun hreplace houtput hnext ih =>
    simp only [replaceInTurn, hreplace]
    rw [ih fun _ => rfl, houtput]
    rfl

/-- A cascade loses nothing between its machines. If the first of them accepts a text, then so do all others what the one before
them wrote: it is read back, without an error, as exactly the symbols that were written. What the cascade makes of the text is
the text of what the machines make of its symbols, one after the other. -/
theorem compile_passesOn {t : Transducer} {ts : List Transducer} (h : ∀ u ∈ t :: ts, u.FitsCascade) {text out : String}
    (ht : t.replace text = .ok out) :
    ∃ symbols, tokenize text = .ok symbols ∧
      PassesOn (t :: ts) text symbols ∧
      replaceInTurn (t :: ts) text = .ok (join (replaceSymbolsInTurn (t :: ts) symbols)) := by
  obtain ⟨symbols, hread, hs, _⟩ := t.replace_eq_ok_iff.mp ht
  have hpasses := passesOn_of_plain h hread (plain_of_tokenize hread hs)
  exact ⟨symbols, hread, hpasses, hpasses.replaceInTurn_eq fun hnil => nomatch hnil⟩

/-- The second of three machines writes a tag with blanks inside. The third, which also has such a tag as initial output, reads it
as one symbol and inserts behind it. -/
theorem compile_passesOn_tags :
    ∃ t u v v', compile .overlapping = .ok t ∧ compile .tagging = .ok u ∧ compile .behindTag = .ok v ∧
      v.withInitialOutput "[one  two]" = .ok v' ∧ (∀ w ∈ [t, u, v'], w.FitsCascade) ∧
      t.replace "y z  a b d e ?" = .ok "y z A B d e ?" ∧
      PassesOn [t, u, v'] "y z  a b d e ?" [⟨"y"⟩, ⟨"z"⟩, ⟨"a"⟩, ⟨"b"⟩, ⟨"d"⟩, ⟨"e"⟩, ⟨"?"⟩] ∧
      replaceInTurn [t, u, v'] "y z  a b d e ?" = .ok "[one  two] y z A [tns =  pst] x d e ?" := by
  have ht := compile_eq_ok RuleSet.accepted_overlapping.valid.pairs_ne_nil
  have hu := compile_eq_ok RuleSet.accepted_tagging.valid.pairs_ne_nil
  have hv := compile_eq_ok RuleSet.accepted_behindTag.valid.pairs_ne_nil
  have hinitial : tokenize "[one  two]" = .ok [⟨"[one  two]"⟩] := by rfl
  have hv' := (withInitialOutput_eq_ok_iff (t := ofConstruction .behindTag (.ofRules .behindTag))).mpr ⟨_, hinitial, rfl⟩
  have hlast := (FitsCascade.compile RuleSet.accepted_behindTag hv).withInitialOutput hv' (by decide)
  have hfits := List.forall_mem_cons.mpr ⟨FitsCascade.compile RuleSet.accepted_overlapping ht,
    List.forall_mem_cons.mpr ⟨FitsCascade.compile RuleSet.accepted_tagging hu, List.forall_mem_singleton.mpr hlast⟩⟩
  have hread : tokenize "y z  a b d e ?" = .ok [⟨"y"⟩, ⟨"z"⟩, ⟨"a"⟩, ⟨"b"⟩, ⟨"d"⟩, ⟨"e"⟩, ⟨"?"⟩] := by rfl
  have hfirst : (ofConstruction .overlapping (.ofRules .overlapping)).replace "y z  a b d e ?" = .ok "y z A B d e ?" :=
    (replace_eq_ok_iff _).mpr ⟨_, hread, by decide, by decide +kernel⟩
  obtain ⟨symbols, hsymbols, hpasses, hout⟩ := compile_passesOn hfits hfirst
  rw [hread, Except.ok.injEq] at hsymbols
  subst hsymbols
  refine ⟨_, _, _, _, ht, hu, hv, hv', hfits, hfirst, hpasses, hout.trans ?_⟩
  decide +kernel

end Transducer

end ReplaceRules
