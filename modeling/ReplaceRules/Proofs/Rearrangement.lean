import ReplaceRules.Proofs.Agreement

/-!
# The order of rules

Two sets of rules are `Alike` if they have the same pairs and the same contexts, in whatever order. Their machines need not be
alike: states are numbered in the order of the rules, and which carry states there are depends on the occurrence that is found
first. But what rules make of a text is said position by position (`RuleSet.Replaces`), without an order.

Main statements: lists with the same pairs and the same contexts are accepted together and make sets that are alike
(`exists_alike_of_ofPairs`); alike sets replace every text alike (`Alike.replace_eq`), so their machines do the same
(`compile_rearranged`).
-/

namespace ReplaceRules

namespace RuleSet

/-- Two sets of rules with the same pairs and the same contexts. -/
structure Alike (r r' : RuleSet) : Prop where
  pairs : ∀ p, p ∈ r'.pairs ↔ p ∈ r.pairs
  contexts : ∀ c, c ∈ r'.contexts ↔ c ∈ r.contexts

/-! ## Lists that are accepted together -/

section Accepting

variable {pairs pairs' : List Pair} {contexts contexts' : List Context} {r : RuleSet}

/-- The shapes of contexts depend on their members only. -/
theorem shapesOf_congr (h : ∀ c, c ∈ contexts' ↔ c ∈ contexts) : shapesOf contexts' = shapesOf contexts := by
  unfold shapesOf
  congr 1
  funext s
  rw [Bool.eq_iff_iff, List.any_eq_true, List.any_eq_true]
  simp only [h]

theorem mixesInsertion_congr (h : ∀ p, p ∈ pairs' ↔ p ∈ pairs) : mixesInsertion pairs' = mixesInsertion pairs := by
  unfold mixesInsertion
  rw [Bool.eq_iff_iff]
  simp only [Bool.and_eq_true, List.any_eq_true, h]

/-- Lists with the same pairs and contexts are accepted together. -/
theorem exists_alike_of_ofContexts (hread : ∀ p ∈ pairs, p.Read) (h : ofContexts pairs contexts = .ok r)
    (hp : ∀ p, p ∈ pairs' ↔ p ∈ pairs) (hc : ∀ c, c ∈ contexts' ↔ c ∈ contexts) :
    ∃ r', ofContexts pairs' contexts' = .ok r' ∧ r.Alike r' := by
  obtain ⟨hshapes, hmix, hadd, hne, hcontexts⟩ := ofContexts_eq_ok_iff.mp h
  obtain ⟨added, hadded⟩ : ∃ added, addPairs [] pairs' = .ok added := exists_addPairs fun p hpp q hq hi =>
    output_eq_of_addPairs hadd ((hp p).mp hpp) ((hp q).mp hq) hi
  have hpairs : ∀ p, p ∈ added ↔ p ∈ r.pairs := by
    intro p
    rw [mem_pairs_iff_of_addPairs hadded (fun q hq => hread q ((hp q).mp hq)), hp, mem_pairs_iff_of_addPairs hadd hread]
  refine ⟨⟨added, if shapesOf contexts' = [.free] then [] else contexts'.eraseDups⟩, ?_, hpairs, ?_⟩
  · rw [ofContexts_eq_ok_iff, shapesOf_congr hc, mixesInsertion_congr hp]
    refine ⟨hshapes, hmix, hadded, ?_, rfl⟩
    obtain ⟨p, rest, hr⟩ := List.exists_cons_of_ne_nil hne
    exact List.ne_nil_of_mem ((hpairs p).mpr (hr ▸ List.mem_cons_self))
  · intro c
    rw [hcontexts, shapesOf_congr hc]
    split
    · rfl
    · rw [List.mem_eraseDups, List.mem_eraseDups, hc]

/-- Lists with the same pairs and the same contexts, as they are written, are accepted together. -/
theorem exists_alike_of_ofPairs {contexts contexts' : List String} (hread : ∀ p ∈ pairs, p.Read)
    (h : ofPairs pairs contexts = .ok r) (hp : ∀ p, p ∈ pairs' ↔ p ∈ pairs) (hc : ∀ c, c ∈ contexts' ↔ c ∈ contexts) :
    ∃ r', ofPairs pairs' contexts' = .ok r' ∧ r.Alike r' := by
  unfold ofPairs at h ⊢
  cases hparsed : readAll Context.parse contexts with
  | error e => simp [hparsed] at h
  | ok parsed =>
    simp only [hparsed] at h
    obtain ⟨parsed', hparsed'⟩ : ∃ parsed', readAll Context.parse contexts' = .ok parsed' := exists_readAll fun source hs => by
      obtain ⟨i, hi⟩ := List.mem_iff_getElem?.mp ((hc source).mp hs)
      obtain ⟨c, _, hread⟩ := (getElem?_of_readAll hparsed).2 i source hi
      exact ⟨c, hread⟩
    simp only [hparsed']
    refine exists_alike_of_ofContexts hread h hp ?_
    intro c
    simp only [mem_readAll_iff hparsed, mem_readAll_iff hparsed', hc]

end Accepting

/-! ## What alike sets make of a text -/

namespace Alike

variable {r r' : RuleSet}

/-- Both sets insert, or none does. -/
theorem inserts_eq (h : r.Alike r') : r'.inserts = r.inserts := by
  unfold inserts
  rw [Bool.eq_iff_iff, List.any_eq_true, List.any_eq_true]
  simp only [h.pairs]

theorem frame_eq (h : r.Alike r') (input : List Symbol) : r'.frame input = r.frame input := by
  unfold frame
  rw [h.inserts_eq]

/-- Both have the same environments. -/
theorem mem_environments_iff (h : r.Alike r') {c : Context} : c ∈ r'.environments ↔ c ∈ r.environments := by
  have hempty : r'.contexts.isEmpty = r.contexts.isEmpty := by
    rw [Bool.eq_iff_iff, List.isEmpty_iff, List.isEmpty_iff]
    simp only [List.eq_nil_iff_forall_not_mem, h.contexts]
  unfold environments matchingContexts
  rw [hempty, h.inserts_eq]
  split
  · rfl
  · split
    · simp only [List.mem_map, h.contexts]
    · exact h.contexts c

/-- The same positions are in a context. -/
theorem standsAround_iff (h : r.Alike r') {text : List Symbol} {i : Nat} : r'.StandsAround text i ↔ r.StandsAround text i := by
  unfold StandsAround
  simp only [h.mem_environments_iff]

/-- Both make the same of a text. -/
theorem replaces (h : r.Alike r') {text replaced : List Symbol} (hr : r.Replaces text replaced) : r'.Replaces text replaced where
  length_eq := hr.length_eq
  output i p hp hs ha := hr.output i p ((h.pairs p).mp hp) hs (h.standsAround_iff.mp ha)
  kept i s hs hn := by
    refine hr.kept i s hs ?_
    rwa [h.standsAround_iff, exists_congr fun p => and_congr_left' (h.pairs p)] at hn

end Alike

/-- What rules make of a text is determined position by position. -/
theorem Replaces.unique {r : RuleSet} {text replaced replaced' : List Symbol} (h : r.Replaces text replaced)
    (h' : r.Replaces text replaced') : replaced' = replaced := by
  apply List.ext_getElem?
  intro i
  cases hs : text[i]? with
  | none =>
    have hl := List.getElem?_eq_none_iff.mp hs
    rw [List.getElem?_eq_none (h'.length_eq ▸ hl), List.getElem?_eq_none (h.length_eq ▸ hl)]
  | some s =>
    by_cases ha : (∃ p ∈ r.pairs, p.input = s) ∧ r.StandsAround text i
    · obtain ⟨⟨p, hp, rfl⟩, ha⟩ := ha
      rw [h.output i p hp hs ha, h'.output i p hp hs ha]
    · rw [h.kept i s hs ha, h'.kept i s hs ha]

/-- Alike sets make the same of an input. -/
theorem Alike.replace_eq {r r' : RuleSet} (h : r.Alike r') (hv : r.Valid) (hv' : r'.Valid) (initialOutput input : List Symbol) :
    r'.replace initialOutput input = r.replace initialOutput input := by
  have heach : r'.replaceEach [] (r.frame input) = r.replaceEach [] (r.frame input) :=
    (h.replaces (hv.replaces (r.frame input))).unique (hv'.replaces (r.frame input))
  rw [replace, replace, h.frame_eq, heach]

/-! ## What alike sets find on a position -/

/-- Both have the same patterns. -/
theorem Alike.mem_toList_iff {r r' : RuleSet} (h : r.Alike r') {p : Pattern} :
    p ∈ (Patterns.ofRules r').toList ↔ p ∈ (Patterns.ofRules r).toList := by
  simp only [Patterns.mem_toList_iff, Patterns.ofRules, h.mem_environments_iff, h.pairs]

/-- All occurrences on a position have the same output: that of the only pair whose input stands there. -/
theorem Valid.output_eq_of_occursAt {r : RuleSet} (h : r.Valid) {window : List Symbol} {i : Nat} {p q : Pattern}
    (hp : p ∈ (Patterns.ofRules r).toList) (hq : q ∈ (Patterns.ofRules r).toList) (hpi : p.OccursAt window i)
    (hqi : q.OccursAt window i) : p.output = q.output := by
  obtain ⟨c, _, a, ha, rfl⟩ := Patterns.mem_toList_iff.mp hp
  obtain ⟨d, _, b, hb, rfl⟩ := Patterns.mem_toList_iff.mp hq
  have hai := ((Pattern.occursAt_ofPair c a window i).mp hpi).2
  have hbi := ((Pattern.occursAt_ofPair d b window i).mp hqi).2
  rw [hai, Option.some.injEq] at hbi
  exact congrArg Pair.output (List.inj_on_of_nodup_map h.inputs_nodup ha hb hbi)

/-- The occurrence that is found first may be another one, but not its output. -/
theorem Alike.output_occurrence?_eq {r r' : RuleSet} (h : r.Alike r') (hv : r.Valid) (window : List Symbol) (i : Nat) :
    ((Patterns.ofRules r').occurrence? window i).map (·.output) = ((Patterns.ofRules r).occurrence? window i).map (·.output) := by
  have hiff : (Patterns.ofRules r').Occurs window i ↔ (Patterns.ofRules r).Occurs window i := by
    simp only [Patterns.Occurs, h.mem_toList_iff]
  rw [← Patterns.isSome_occurrence?_iff, ← Patterns.isSome_occurrence?_iff] at hiff
  cases hp : (Patterns.ofRules r').occurrence? window i with
  | none =>
    have hq : (Patterns.ofRules r).occurrence? window i = none := by simpa [hp] using hiff
    rw [hq]
  | some p =>
    obtain ⟨q, hq⟩ := Option.isSome_iff_exists.mp (hiff.mp (by rw [hp]; rfl))
    obtain ⟨hpm, hpo⟩ := Patterns.occurrence?_eq_some hp
    obtain ⟨hqm, hqo⟩ := Patterns.occurrence?_eq_some hq
    rw [hq, Option.map_some, Option.map_some, hv.output_eq_of_occursAt (h.mem_toList_iff.mp hpm) hqm hpo hqo]

end RuleSet

namespace Transducer

/-- The order of pairs and contexts and their repetitions do not matter: if lists make a set of rules, lists with the same pairs
and the same contexts make one, too, and both machines make the same of every list of symbols. For all occurrences on a position
have the same output, and so has the one that is found first in either order. -/
theorem compile_rearranged {pairs pairs' : List Pair} {contexts contexts' : List String} {r : RuleSet}
    (hread : ∀ p ∈ pairs, p.Read) (h : RuleSet.ofPairs pairs contexts = .ok r) (hp : ∀ p, p ∈ pairs' ↔ p ∈ pairs)
    (hc : ∀ c, c ∈ contexts' ↔ c ∈ contexts) :
    ∃ r' t t', RuleSet.ofPairs pairs' contexts' = .ok r' ∧ compile r = .ok t ∧ compile r' = .ok t' ∧
      (∀ input, t'.replaceSymbols input = t.replaceSymbols input) ∧
      (∀ window position, ∀ p ∈ (Patterns.ofRules r).toList, ∀ q ∈ (Patterns.ofRules r).toList,
        p.OccursAt window position → q.OccursAt window position → p.output = q.output) ∧
      ∀ window position, ((Patterns.ofRules r').occurrence? window position).map (·.output) =
        ((Patterns.ofRules r).occurrence? window position).map (·.output) := by
  obtain ⟨r', h', halike⟩ := RuleSet.exists_alike_of_ofPairs hread h hp hc
  have hv := RuleSet.valid_of_ofPairs h hread
  have hv' := RuleSet.valid_of_ofPairs h' fun p hpp => hread p ((hp p).mp hpp)
  obtain ⟨t, hc, ht⟩ := exists_compile_eq_ok hv
  obtain ⟨t', hc', ht'⟩ := exists_compile_eq_ok hv'
  refine ⟨r', t, t', h', hc, hc', ?_, ?_, ?_⟩
  · intro input
    rw [ht, ht', halike.replace_eq hv hv' [] input]
  · intro window position p hpm q hqm
    exact hv.output_eq_of_occursAt hpm hqm
  · exact halike.output_occurrence?_eq hv

/-- Three contexts in two orders, once with repetitions. In the first order the machine has a carry state for `b a a a`, as the
occurrence after `b a` is found before the shorter one; in the second it needs none. Both do the same. -/
theorem compile_rearranged_crossing :
    ∃ r r' t t', RuleSet.ofPairs [.assimilation ⟨"a"⟩ ⟨"X"⟩] ["b a _ a", "a _ a", "a _ a a"] = .ok r ∧
      RuleSet.ofPairs [.assimilation ⟨"a"⟩ ⟨"X"⟩, .assimilation ⟨"a"⟩ ⟨"X"⟩] ["a _ a", "b a _ a", "a _ a a", "a _ a"] = .ok r' ∧
      compile r = .ok t ∧ compile r' = .ok t' ∧ t.states.size = 8 ∧ t'.states.size = 7 ∧
      ∀ input, t'.replaceSymbols input = t.replaceSymbols input := by
  have hread : ∀ p ∈ [Pair.assimilation ⟨"a"⟩ ⟨"X"⟩], p.Read := by
    intro p hp
    rw [List.mem_singleton] at hp
    subst hp
    exact ⟨"a", "X", by rfl⟩
  have hr : RuleSet.ofPairs [.assimilation ⟨"a"⟩ ⟨"X"⟩] ["b a _ a", "a _ a", "a _ a a"] =
      .ok ⟨[.assimilation ⟨"a"⟩ ⟨"X"⟩], [⟨[⟨"b"⟩, ⟨"a"⟩], [⟨"a"⟩]⟩, ⟨[⟨"a"⟩], [⟨"a"⟩]⟩, ⟨[⟨"a"⟩], [⟨"a"⟩, ⟨"a"⟩]⟩]⟩ := by rfl
  have hr' : RuleSet.ofPairs [.assimilation ⟨"a"⟩ ⟨"X"⟩, .assimilation ⟨"a"⟩ ⟨"X"⟩] ["a _ a", "b a _ a", "a _ a a", "a _ a"] =
      .ok ⟨[.assimilation ⟨"a"⟩ ⟨"X"⟩], [⟨[⟨"a"⟩], [⟨"a"⟩]⟩, ⟨[⟨"b"⟩, ⟨"a"⟩], [⟨"a"⟩]⟩, ⟨[⟨"a"⟩], [⟨"a"⟩, ⟨"a"⟩]⟩]⟩ := by rfl
  have hp : ∀ p, p ∈ [Pair.assimilation ⟨"a"⟩ ⟨"X"⟩, .assimilation ⟨"a"⟩ ⟨"X"⟩] ↔ p ∈ [Pair.assimilation ⟨"a"⟩ ⟨"X"⟩] := by simp
  have hc : ∀ c, c ∈ ["a _ a", "b a _ a", "a _ a a", "a _ a"] ↔ c ∈ ["b a _ a", "a _ a", "a _ a a"] := by
    intro c
    grind
  obtain ⟨r', t, t', h', ht, ht', hsame, _⟩ := compile_rearranged hread hr hp hc
  refine ⟨_, r', t, t', hr, h', ht, ht', ?_, ?_, hsame⟩
  · obtain rfl := eq_of_compile ht (by decide)
    decide +kernel
  · rw [hr', Except.ok.injEq] at h'
    subst h'
    obtain rfl := eq_of_compile ht' (by decide)
    decide +kernel

end Transducer

end ReplaceRules
