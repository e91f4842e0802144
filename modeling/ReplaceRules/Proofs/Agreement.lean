import Mathlib.Data.List.Nodup
import ReplaceRules.Proofs.Online
import ReplaceRules.Reference

/-!
# The machine does what the rules mean

The meaning of rules looks at each symbol on its own, with the symbols before it and those after it. `Replaces` says the same
position by position (`Valid.replaces`). The meaning of patterns looks for occurrences in the whole text; both make the same
of a text (`replaceEach_eq_replaceAll`).

Main statement: the machine of an accepted set of rules makes of every input what the rules make of it, with or without an
initial output.
-/

namespace ReplaceRules

/-- The sides of a context stand around a position if the left one ends what is before it and the right one begins what is after
it. -/
theorem Context.standsAround_iff (c : Context) {text : List Symbol} {i : Nat} (hi : i < text.length) :
    c.standsAround text i = true ↔ c.left <:+ text.take i ∧ c.right <+: text.drop (i + 1) := by
  simp only [Context.standsAround, Bool.and_eq_true, decide_eq_true_eq, List.isPrefixOf_iff_prefix, and_congr_left_iff]
  intro _
  have hl : (text.take i).length = i := by rw [List.length_take]; omega
  constructor
  · rintro ⟨hc, hp⟩
    have he : (text.drop (i - c.left.length)).take c.left.length = c.left := (List.prefix_iff_eq_take.mp hp).symm
    have hcut : text.take i = text.take (i - c.left.length) ++ c.left := by
      rw [← Nat.sub_add_cancel hc, List.take_add, Nat.add_sub_cancel, he]
    rw [hcut]
    exact List.suffix_append _ _
  · intro hs
    have hle := hs.length_le
    rw [hl] at hle
    obtain ⟨before, hb⟩ := hs
    have hbl := congrArg List.length hb
    rw [List.length_append, hl] at hbl
    have hcut : text = before ++ (c.left ++ text.drop i) := by rw [← List.append_assoc, hb, List.take_append_drop]
    have hn : i - c.left.length = before.length := by omega
    refine ⟨hle, ?_⟩
    rw [hn, hcut, List.drop_left]
    exact List.prefix_append _ _

namespace RuleSet

/-- Some context of a set of rules, or the free one if the set has none, stands immediately around a position of a text. -/
def StandsAround (r : RuleSet) (text : List Symbol) (position : Nat) : Prop :=
  ∃ c ∈ r.environments, c.left <:+ text.take position ∧ c.right <+: text.drop (position + 1)

/-- What the rules make of a text, said position by position: a symbol becomes the output of the pair that has it as input if a
context stands around it, and every other symbol stays what it is. -/
structure Replaces (r : RuleSet) (text replaced : List Symbol) : Prop where
  length_eq : replaced.length = text.length
  output : ∀ i, ∀ p ∈ r.pairs, text[i]? = some p.input → r.StandsAround text i → replaced[i]? = some p.output
  kept : ∀ i s, text[i]? = some s → ¬((∃ p ∈ r.pairs, p.input = s) ∧ r.StandsAround text i) → replaced[i]? = some s

variable (r : RuleSet)

theorem applies_iff {text : List Symbol} {i : Nat} :
    r.applies (text.take i).reverse (text.drop (i + 1)) = true ↔ r.StandsAround text i := by
  simp only [applies, List.any_eq_true, Bool.and_eq_true, List.isPrefixOf_iff_prefix, List.reverse_prefix, StandsAround]

theorem any_standsAround_iff {text : List Symbol} {i : Nat} (hi : i < text.length) :
    (r.environments.any fun c => c.standsAround text i) = true ↔ r.StandsAround text i := by
  simp only [List.any_eq_true, Context.standsAround_iff _ hi, StandsAround]

/-- A symbol becomes the output of the pair that has it as input, if a context stands around it: there is no other such pair. -/
theorem Valid.replaceOne_eq_output {r : RuleSet} (h : r.Valid) {p : Pair} (hp : p ∈ r.pairs) {before after : List Symbol}
    (ha : r.applies before after = true) : r.replaceOne before p.input after = p.output := by
  have hfind : r.pairs.find? (·.input = p.input) = some p := by
    cases hq : r.pairs.find? (·.input = p.input) with
    | none => exact absurd (List.find?_eq_none.mp hq p hp) (by simp)
    | some q =>
      have hi : q.input = p.input := by simpa using List.find?_some hq
      rw [List.inj_on_of_nodup_map h.inputs_nodup (List.mem_of_find?_eq_some hq) hp hi]
  rw [replaceOne, hfind]
  exact if_pos ha

/-- A symbol is kept if no pair has it as input, or no context stands around it. -/
theorem replaceOne_eq_self {before after : List Symbol} {s : Symbol}
    (h : ¬((∃ p ∈ r.pairs, p.input = s) ∧ r.applies before after = true)) : r.replaceOne before s after = s := by
  unfold replaceOne
  split
  · next p hp =>
    have hi : p.input = s := by simpa using List.find?_some hp
    exact if_neg fun ha => h ⟨⟨p, List.mem_of_find?_eq_some hp, hi⟩, ha⟩
  · rfl

/-- Each symbol is looked at between the symbols before it and those after it. -/
theorem getElem?_replaceEach (before text : List Symbol) (i : Nat) :
    (r.replaceEach before text)[i]? =
      text[i]?.map fun s => r.replaceOne ((text.take i).reverse ++ before) s (text.drop (i + 1)) := by
  induction text generalizing before i with
  | nil => rfl
  | cons s after ih =>
    cases i with
    | zero => rfl
    | succ i =>
      rw [replaceEach, List.getElem?_cons_succ, ih, List.getElem?_cons_succ]
      simp only [List.take_succ_cons, List.reverse_cons, List.append_assoc, List.singleton_append, List.drop_succ_cons]

theorem length_replaceEach (before text : List Symbol) : (r.replaceEach before text).length = text.length := by
  induction text generalizing before with
  | nil => rfl
  | cons s after ih => rw [replaceEach, List.length_cons, ih, List.length_cons]

/-- Looking at each symbol on its own, a valid set replaces a text as it is said position by position. -/
theorem Valid.replaces {r : RuleSet} (h : r.Valid) (text : List Symbol) : r.Replaces text (r.replaceEach [] text) where
  length_eq := r.length_replaceEach [] text
  output i p hp hs ha := by
    rw [getElem?_replaceEach, hs, Option.map_some, List.append_nil, h.replaceOne_eq_output hp (r.applies_iff.mpr ha)]
  kept i s hs hn := by
    rw [← r.applies_iff] at hn
    rw [getElem?_replaceEach, hs, Option.map_some, List.append_nil, r.replaceOne_eq_self hn]

/-- A symbol on its own becomes what it becomes as the focus of a pattern. -/
theorem replaceOne_eq_replaceAt {text : List Symbol} {i : Nat} {s : Symbol} (hs : text[i]? = some s) :
    r.replaceOne (text.take i).reverse s (text.drop (i + 1)) = (Patterns.ofRules r).replaceAt text i s := by
  have hi := (List.getElem?_eq_some_iff.mp hs).1
  have hiff := r.applies_iff.trans (r.any_standsAround_iff hi).symm
  unfold replaceOne Patterns.replaceAt Patterns.occurrence?
  rw [hs, Option.bind_some, Bool.eq_iff_iff.mpr hiff]
  cases hp : r.pairs.find? (·.input = s) with
  | none => simp only [Patterns.ofRules, hp, Option.bind_none, Option.map_none, Option.getD_none]
  | some p =>
    simp only [Patterns.ofRules, hp, Option.bind_some]
    cases hc : r.environments.find? (·.standsAround text i) with
    | none =>
      have hnone : (r.environments.any fun c => c.standsAround text i) = false := by
        rw [List.any_eq_false]
        exact fun c hm => List.find?_eq_none.mp hc c hm
      rw [hnone]
      rfl
    | some c =>
      have hstands : c.standsAround text i = true := by simpa using List.find?_some hc
      have hsome : (r.environments.any fun c => c.standsAround text i) = true :=
        List.any_eq_true.mpr ⟨c, List.mem_of_find?_eq_some hc, hstands⟩
      rw [hsome]
      rfl

/-- The rules and their patterns make the same of a text. -/
theorem replaceEach_eq_replaceAll (text : List Symbol) : r.replaceEach [] text = (Patterns.ofRules r).replaceAll text := by
  apply List.ext_getElem?
  intro i
  rw [getElem?_replaceEach, Patterns.getElem?_replaceAll]
  cases hs : text[i]? with
  | none => rfl
  | some s => rw [Option.map_some, Option.map_some, List.append_nil, r.replaceOne_eq_replaceAt hs]

end RuleSet

namespace Transducer

/-- An initial output does not matter to the patterns. -/
theorem Realizes.withInitialOutput {t : Transducer} {ps : Patterns} (h : t.Realizes ps) (symbols : List Symbol) :
    { t with initialOutput := symbols }.Realizes ps :=
  ⟨h.tracks, h.closed, h.knows, h.wildcard_mem, h.foreign, h.table_eq, h.finals_eq⟩

/-- A machine that realizes the patterns of rules makes of an input what the rules make of it. -/
theorem Realizes.replaceSymbols_eq {t : Transducer} {r : RuleSet} (h : t.Realizes (.ofRules r)) (hr : t.rules = r)
    (input : List Symbol) : t.replaceSymbols input = r.replace t.initialOutput input := by
  have honline := (h.online (r.frame input)).writes_append_owed
  have htape : (t.run input).tape =
      t.initialOutput ++ (t.writes 0 (r.frame input) ++ t.owed (t.reach 0 (r.frame input))) := by
    subst hr
    exact List.append_assoc _ _ _
  rw [replaceSymbols, Trace.output, htape, honline, RuleSet.replace, RuleSet.replaceEach_eq_replaceAll]

/-- The machines that can be made of a set of rules: the one that is compiled, without an initial output or with one. -/
inductive MadeFrom (r : RuleSet) : Transducer → Prop where
  | compile {t : Transducer} (h : Transducer.compile r = .ok t) : MadeFrom r t
  | withInitialOutput {t t' : Transducer} {text : String} (ht : MadeFrom r t) (h : t.withInitialOutput text = .ok t') :
      MadeFrom r t'

/-- An initial output is what was read from a text, and the rest of the machine stays as it is. -/
theorem withInitialOutput_eq_ok_iff {t t' : Transducer} {text : String} :
    t.withInitialOutput text = .ok t' ↔
      ∃ symbols, tokenize text = .ok symbols ∧ t' = { t with initialOutput := symbols } := by
  unfold Transducer.withInitialOutput
  cases tokenize text with
  | error e => simp
  | ok symbols =>
    simp only [Except.ok.injEq, exists_eq_left']
    exact eq_comm

/-- Every machine that is made of a valid set of rules realizes the patterns of the rules. -/
theorem MadeFrom.realizes {t : Transducer} {r : RuleSet} (h : MadeFrom r t) (hr : r.Valid) :
    t.rules = r ∧ t.Realizes (.ofRules r) := by
  induction h with
  | compile h =>
    obtain rfl := eq_of_compile h hr.pairs_ne_nil
    exact ⟨rfl, realizes_ofConstruction hr⟩
  | withInitialOutput _ h ih =>
    obtain ⟨symbols, _, rfl⟩ := withInitialOutput_eq_ok_iff.mp h
    exact ⟨ih.1, ih.2.withInitialOutput symbols⟩

/-- A machine that was compiled writes nothing before it reads. -/
theorem initialOutput_of_compile {t : Transducer} {r : RuleSet} (h : Transducer.compile r = .ok t) : t.initialOutput = [] := by
  unfold Transducer.compile at h
  dsimp only at h
  split at h
  · nomatch h
  · cases h
    rfl

/-- The initial output of a machine was read from a text. -/
theorem MadeFrom.exists_tokenize {t : Transducer} {r : RuleSet} (h : MadeFrom r t) :
    ∃ text, tokenize text = .ok t.initialOutput := by
  cases h with
  | compile h => exact ⟨"", by rw [initialOutput_of_compile h]; rfl⟩
  | withInitialOutput _ h =>
    obtain ⟨symbols, hs, rfl⟩ := withInitialOutput_eq_ok_iff.mp h
    exact ⟨_, hs⟩

/-- The machine of a valid set of rules makes of an input what the rules make of it. -/
theorem exists_compile_eq_ok {r : RuleSet} (h : r.Valid) :
    ∃ t, compile r = .ok t ∧ ∀ input, t.replaceSymbols input = r.replace [] input :=
  ⟨_, compile_eq_ok h.pairs_ne_nil, (realizes_ofConstruction h).replaceSymbols_eq rfl⟩

/-- The machine of an accepted set of rules agrees with the rules: it makes of every list of symbols what the rules make of
it, with no initial output or with any that can be read. What the rules make of an input is the initial output and the frame
of the input, replaced position by position, without the sentinels. -/
theorem compile_agrees {r : RuleSet} (h : r.Accepted) :
    (∀ symbols input, ∃ replaced, r.Replaces (r.frame input) replaced ∧
      r.replace symbols input = (symbols ++ replaced).filter (!·.isSentinel)) ∧
    ∃ t, compile r = .ok t ∧
      (∀ input, t.replaceSymbols input = r.replace [] input) ∧
      ∀ text symbols, tokenize text = .ok symbols →
        ∃ t', t.withInitialOutput text = .ok t' ∧ ∀ input, t'.replaceSymbols input = r.replace symbols input := by
  refine ⟨fun symbols input => ⟨_, h.valid.replaces (r.frame input), rfl⟩, ?_⟩
  have hr := realizes_ofConstruction h.valid
  have hrules : (ofConstruction r (.ofRules r)).rules = r := rfl
  have hempty : (ofConstruction r (.ofRules r)).initialOutput = [] := rfl
  refine ⟨_, compile_eq_ok h.valid.pairs_ne_nil, ?_⟩
  generalize ofConstruction r (.ofRules r) = t at hr hrules hempty
  refine ⟨?_, ?_⟩
  · intro input
    rw [hr.replaceSymbols_eq hrules, hempty]
  · intro text symbols ht
    refine ⟨{ t with initialOutput := symbols }, ?_, ?_⟩
    · rw [withInitialOutput, ht]
    · intro input
      exact (hr.withInitialOutput symbols).replaceSymbols_eq hrules input

/-- Both symbols are replaced, each because of what the other was. -/
theorem compile_agrees_overlapping :
    ∃ t, compile .overlapping = .ok t ∧
      t.replaceSymbols [⟨"y"⟩, ⟨"z"⟩, ⟨"a"⟩, ⟨"b"⟩, ⟨"d"⟩, ⟨"e"⟩] = [⟨"y"⟩, ⟨"z"⟩, ⟨"A"⟩, ⟨"B"⟩, ⟨"d"⟩, ⟨"e"⟩] := by
  obtain ⟨_, t, hc, hagrees, _⟩ := compile_agrees RuleSet.accepted_overlapping
  refine ⟨t, hc, ?_⟩
  rw [hagrees]
  decide

end Transducer

end ReplaceRules
