import Mathlib.Data.List.Induction
import Mathlib.Data.List.Sort
import ReplaceRules.Proofs.Accepted
import ReplaceRules.Proofs.ContextTexts

/-!
# The normal form of a set of rules

Pairs and contexts are `Consistent` if the contexts have one shape, all pairs insert or none does, no input has two outputs, and
there is a pair at all. Whatever breaks this is found in that order, after the contexts have been read (`Refuses`). A set that is
made is in normal form: it keeps the first of all that are the same, in the order in which they are given (`FirstsOf`), and no context
if the contexts are free.

Main statement: exactly the consistent sets are made, all others are refused for the first reason there is, and a set that was made
is in normal form, so it is made again from its own pairs and the texts of its contexts (`RuleSet.ofPairs_exact`).
-/

namespace ReplaceRules

/-- The first occurrences in a list, in their order and without repetition. -/
structure FirstsOf {α : Type} [DecidableEq α] (l firsts : List α) : Prop where
  mem_iff : ∀ a, a ∈ firsts ↔ a ∈ l
  ordered : firsts.Pairwise fun a b => l.idxOf a < l.idxOf b

namespace RuleSet

/-- Contexts that have been read from texts, one from each. -/
def ReadAs (sources : List String) (contexts : List Context) : Prop :=
  List.Forall₂ (fun source c => Context.parse source = .ok c) sources contexts

/-- No input of some pairs has two outputs. -/
def Unambiguous (pairs : List Pair) : Prop := ∀ p ∈ pairs, ∀ q ∈ pairs, p.input = q.input → p.output = q.output

/-- What pairs and contexts have to fulfil to make a set of rules. -/
structure Consistent (pairs : List Pair) (contexts : List Context) : Prop where
  one_shape : ∀ c ∈ contexts, ∀ d ∈ contexts, c.shape = d.shape
  insertion : (∀ p ∈ pairs, p.kind = .insertion) ∨ ∀ p ∈ pairs, p.kind ≠ .insertion
  unambiguous : Unambiguous pairs
  pairs_ne_nil : pairs ≠ []

/-- Why pairs and contexts that have been read make no set of rules: the first condition that is broken. -/
inductive Conflicts (pairs : List Pair) (contexts : List Context) : RuleError → Prop where
  /-- The contexts have several shapes; all that occur are reported. -/
  | mixedShapes {found : List Shape} {c d : Context} (hc : c ∈ contexts) (hd : d ∈ contexts) (hne : c.shape ≠ d.shape)
      (hsub : found.Sublist Shape.all) (hfound : ∀ s, s ∈ found ↔ ∃ c ∈ contexts, c.shape = s) :
      Conflicts pairs contexts (.mixedShapes found)
  /-- One pair inserts and another one does not. -/
  | mixedInsertion {p q : Pair} (hshape : ∀ c ∈ contexts, ∀ d ∈ contexts, c.shape = d.shape) (hp : p ∈ pairs) (hq : q ∈ pairs)
      (hpk : p.kind = .insertion) (hqk : q.kind ≠ .insertion) : Conflicts pairs contexts .mixedInsertion
  /-- A pair gives the input of an earlier one another output, and is the first that does. -/
  | ambiguous {before after : List Pair} {p q : Pair} (hshape : ∀ c ∈ contexts, ∀ d ∈ contexts, c.shape = d.shape)
      (hinsertion : (∀ p ∈ pairs, p.kind = .insertion) ∨ ∀ p ∈ pairs, p.kind ≠ .insertion) (hpairs : pairs = before ++ q :: after)
      (hbefore : Unambiguous before) (hp : p ∈ before) (hinput : p.input = q.input) (houtput : p.output ≠ q.output) :
      Conflicts pairs contexts (.ambiguous q.input.text p.output.text q.output.text)
  /-- There is no pair. -/
  | noRules (hshape : ∀ c ∈ contexts, ∀ d ∈ contexts, c.shape = d.shape) (hpairs : pairs = []) : Conflicts pairs contexts .noRules

/-- Why pairs and contexts as they are written make no set of rules: the first context that cannot be read, or else a conflict. -/
inductive Refuses (pairs : List Pair) (sources : List String) : RuleError → Prop where
  | context {before after : List String} {source : String} {e : RuleError} (hsources : sources = before ++ source :: after)
      (hbefore : ∀ source ∈ before, ∃ c, Context.parse source = .ok c) (he : Context.parse source = .error e) :
      Refuses pairs sources e
  | conflict {contexts : List Context} {e : RuleError} (hread : ReadAs sources contexts) (he : Conflicts pairs contexts e) :
      Refuses pairs sources e

/-- A set of rules is the normal form of pairs and contexts. -/
structure IsNormalForm (r : RuleSet) (pairs : List Pair) (contexts : List Context) : Prop where
  pairs_firsts : FirstsOf pairs r.pairs
  inputs_nodup : (r.pairs.map (·.input)).Nodup
  inserts_iff : r.inserts = true ↔ ∀ p ∈ pairs, p.kind = .insertion
  shape_eq : ∀ c ∈ contexts, c.shape = r.shape
  contexts_free : r.shape = .free → r.contexts = []
  contexts_firsts : r.shape ≠ .free → FirstsOf contexts r.contexts

end RuleSet

/-! ## First occurrences -/

/-- Lists with the same members in the same strict order are the same. -/
theorem eq_of_pairwise_lt {α : Type} {key : α → Nat} {l l' : List α} (h : l.Pairwise fun a b => key a < key b)
    (h' : l'.Pairwise fun a b => key a < key b) (hmem : ∀ a, a ∈ l ↔ a ∈ l') : l = l' := by
  have : Std.Irrefl fun a b => key a < key b := ⟨fun a => Nat.lt_irrefl (key a)⟩
  have : Std.Antisymm fun a b => key a < key b := ⟨fun a b hab hba => absurd hab (Nat.lt_asymm hba)⟩
  exact h.eq_of_mem_iff h' hmem

namespace FirstsOf

variable {α : Type} [DecidableEq α] {l firsts firsts' : List α} {a : α}

theorem nodup (h : FirstsOf l firsts) : firsts.Nodup := by
  refine h.ordered.imp ?_
  rintro a _ hlt rfl
  exact Nat.lt_irrefl _ hlt

/-- There is one list of first members. -/
theorem unique (h : FirstsOf l firsts) (h' : FirstsOf l firsts') : firsts = firsts' :=
  eq_of_pairwise_lt h.ordered h'.ordered fun a => (h.mem_iff a).trans (h'.mem_iff a).symm

/-- A list without repetition is its own first occurrences. -/
theorem self (h : l.Nodup) : FirstsOf l l where
  mem_iff _ := Iff.rfl
  ordered := by
    rw [List.pairwise_iff_getElem]
    intro i j hi hj hlt
    rwa [h.idxOf_getElem, h.idxOf_getElem]

theorem nil : FirstsOf ([] : List α) [] := self List.nodup_nil

/-- First occurrences keep their order when the list grows. -/
theorem pairwise_append (h : FirstsOf l firsts) (more : List α) :
    firsts.Pairwise fun a b => (l ++ more).idxOf a < (l ++ more).idxOf b := by
  refine h.ordered.imp_of_mem ?_
  intro a b ha hb hlt
  rwa [List.idxOf_append_of_mem ((h.mem_iff a).mp ha), List.idxOf_append_of_mem ((h.mem_iff b).mp hb)]

/-- What is new at the end of a list is its last first occurrence. -/
theorem concat_new (h : FirstsOf l firsts) (ha : a ∉ l) : FirstsOf (l ++ [a]) (firsts ++ [a]) where
  mem_iff b := by rw [List.mem_append, List.mem_append, h.mem_iff]
  ordered := by
    rw [List.pairwise_append]
    refine ⟨h.pairwise_append [a], List.pairwise_singleton _ _, ?_⟩
    intro b hb c hc
    obtain rfl := List.mem_singleton.mp hc
    have hb := (h.mem_iff b).mp hb
    rw [List.idxOf_append_of_mem hb, List.idxOf_append_of_notMem ha]
    exact Nat.lt_of_lt_of_le (List.idxOf_lt_length_of_mem hb) (Nat.le_add_right _ _)

/-- What is repeated at the end of a list changes nothing. -/
theorem concat_old (h : FirstsOf l firsts) (ha : a ∈ l) : FirstsOf (l ++ [a]) firsts where
  mem_iff b := by
    rw [h.mem_iff, List.mem_append, List.mem_singleton]
    exact ⟨.inl, fun hb => hb.elim id fun he => he ▸ ha⟩
  ordered := h.pairwise_append [a]

end FirstsOf

/-- Removing repetitions keeps the first members. -/
theorem firstsOf_eraseDups {α : Type} [DecidableEq α] (l : List α) : FirstsOf l l.eraseDups := by
  induction l using List.reverseRecOn with
  | nil => exact .nil
  | append_singleton l a ih =>
    rw [List.eraseDups_append]
    by_cases ha : a ∈ l
    · simpa [List.removeAll, ha] using ih.concat_old ha
    · simpa [List.removeAll, List.eraseDups_cons, ha] using ih.concat_new ha

/-! ## The shapes of contexts -/

/-- The shapes of contexts are those that occur, in the order of all shapes. -/
theorem eq_shapesOf_iff {contexts : List Context} {found : List Shape} :
    found = shapesOf contexts ↔ found.Sublist Shape.all ∧ ∀ s, s ∈ found ↔ ∃ c ∈ contexts, c.shape = s := by
  have hsub : (shapesOf contexts).Sublist Shape.all := List.filter_sublist
  have hordered : Shape.all.Pairwise fun s t => Shape.all.idxOf s < Shape.all.idxOf t := by decide
  constructor
  · rintro rfl
    exact ⟨hsub, fun s => mem_shapesOf_iff⟩
  · rintro ⟨hfound, hmem⟩
    exact eq_of_pairwise_lt (hordered.sublist hfound) (hordered.sublist hsub) fun s => (hmem s).trans mem_shapesOf_iff.symm

/-! ## Adding pairs -/

section Adding

variable {pairs kept added : List Pair}

/-- What has been added after some pairs is what the other pairs are added to. -/
theorem addPairs_append {before : List Pair} (h : addPairs kept before = .ok added) (rest : List Pair) :
    addPairs kept (before ++ rest) = addPairs added rest := by
  induction before generalizing kept with
  | nil =>
    cases h
    rfl
  | cons p before ih =>
    rw [List.cons_append]
    rcases addPairs_cons_cases kept p with ⟨_, heq⟩ | ⟨q, _, _, ⟨_, heq⟩ | ⟨_, heq⟩⟩
    · rw [heq] at h ⊢
      exact ih h
    · rw [heq] at h ⊢
      exact ih h
    · rw [heq] at h
      nomatch h

/-- Adding pairs keeps the first of all that are the same. -/
theorem firstsOf_addPairs {seen : List Pair} (h : addPairs kept pairs = .ok added) (hread : ∀ p ∈ seen ++ pairs, p.Read)
    (hk : FirstsOf seen kept) : FirstsOf (seen ++ pairs) added := by
  induction pairs generalizing kept seen with
  | nil =>
    cases h
    rwa [List.append_nil]
  | cons p rest ih =>
    have happend : seen ++ p :: rest = seen ++ [p] ++ rest := by simp
    rw [happend] at hread ⊢
    rcases addPairs_cons_cases kept p with ⟨hnew, heq⟩ | ⟨q, hq, hi, ⟨ho, heq⟩ | ⟨_, heq⟩⟩
    · rw [heq] at h
      refine ih h hread (hk.concat_new ?_)
      intro hp
      exact hnew p ((hk.mem_iff p).mpr hp) rfl
    · rw [heq] at h
      have hq := (hk.mem_iff q).mp hq
      obtain rfl : q = p := Pair.Read.ext (hread q (by simp [hq])) (hread p (by simp)) hi ho
      exact ih h hread (hk.concat_old hq)
    · rw [heq] at h
      nomatch h

/-- Adding pairs ends at the first one that gives a known input another output. -/
theorem exists_of_addPairs_eq_error {e : RuleError} (h : addPairs kept pairs = .error e) :
    ∃ before q after added p, pairs = before ++ q :: after ∧ addPairs kept before = .ok added ∧ p ∈ added ∧ p.input = q.input ∧
      p.output ≠ q.output ∧ e = .ambiguous q.input.text p.output.text q.output.text := by
  induction pairs generalizing kept with
  | nil => nomatch h
  | cons p rest ih =>
    rcases addPairs_cons_cases kept p with ⟨_, heq⟩ | ⟨q, hq, hi, ⟨_, heq⟩ | ⟨ho, heq⟩⟩
    · rw [heq] at h
      obtain ⟨before, q, after, added, p', rfl, hadd, hp'⟩ := ih h
      exact ⟨p :: before, q, after, added, p', rfl, (heq before).trans hadd, hp'⟩
    · rw [heq] at h
      obtain ⟨before, q', after, added, p', rfl, hadd, hp'⟩ := ih h
      exact ⟨p :: before, q', after, added, p', rfl, (heq before).trans hadd, hp'⟩
    · rw [heq, Except.error.injEq] at h
      exact ⟨[], p, rest, kept, q, rfl, rfl, hq, hi, ho, h.symm⟩

/-- A pair that gives the input of what was added another output ends the adding: no input is added twice, so there is one pair that
it can contradict. -/
theorem addPairs_eq_error {p q : Pair} {before after : List Pair} (h : addPairs [] before = .ok added) (hp : p ∈ before)
    (hi : p.input = q.input) (ho : p.output ≠ q.output) :
    addPairs [] (before ++ q :: after) = .error (.ambiguous q.input.text p.output.text q.output.text) := by
  obtain ⟨p', hp', hpi, hpo⟩ := (exists_of_addPairs h).2 p hp
  rw [addPairs_append h]
  rcases addPairs_cons_cases added q with ⟨hnew, _⟩ | ⟨p'', hp'', hi'', hcases⟩
  · exact absurd (hpi.trans hi) (hnew p' hp')
  · obtain rfl : p'' = p' := List.inj_on_of_nodup_map (addPairs_eq_ok h (by simp)).1 hp'' hp' (by rw [hi'', hpi, hi])
    rw [hpo] at hcases
    rcases hcases with ⟨hsame, _⟩ | ⟨_, heq⟩
    · exact absurd hsame ho
    · exact heq after

end Adding

namespace RuleSet

variable {pairs : List Pair} {contexts : List Context} {sources : List String} {r : RuleSet} {e : RuleError}

/-- Pairs can be added unless two of them contradict each other. -/
theorem exists_addPairs_iff : (∃ added, addPairs [] pairs = .ok added) ↔ Unambiguous pairs := by
  constructor
  · rintro ⟨added, h⟩ p hp q hq
    exact output_eq_of_addPairs h hp hq
  · intro h
    exact exists_addPairs fun p hp q hq => h p hp q hq

/-- It fails at the first pair that contradicts one before it, with the input and both outputs. -/
theorem addPairs_eq_error_iff : addPairs [] pairs = .error e ↔ ∃ before q after p, pairs = before ++ q :: after ∧
    Unambiguous before ∧ p ∈ before ∧ p.input = q.input ∧ p.output ≠ q.output ∧
      e = .ambiguous q.input.text p.output.text q.output.text := by
  constructor
  · intro h
    obtain ⟨before, q, after, added, p, hpairs, hadd, hp, hpq⟩ := exists_of_addPairs_eq_error h
    refine ⟨before, q, after, p, hpairs, exists_addPairs_iff.mp ⟨added, hadd⟩, ?_, hpq⟩
    exact ((addPairs_eq_ok hadd (by simp)).2 p hp).resolve_left List.not_mem_nil
  · rintro ⟨before, q, after, p, rfl, hbefore, hp, hi, ho, rfl⟩
    obtain ⟨added, hadd⟩ := exists_addPairs_iff.mpr hbefore
    exact addPairs_eq_error hadd hp hi ho

/-- Pairs are mixed if one inserts and another one does not. -/
theorem mixesInsertion_eq_true_iff :
    mixesInsertion pairs = true ↔ ∃ p ∈ pairs, ∃ q ∈ pairs, p.kind = .insertion ∧ q.kind ≠ .insertion := by
  simp only [mixesInsertion, Bool.and_eq_true, List.any_eq_true, decide_eq_true_eq]
  constructor
  · rintro ⟨⟨p, hp, hpk⟩, q, hq, hqk⟩
    exact ⟨p, hp, q, hq, hpk, hqk⟩
  · rintro ⟨p, hp, q, hq, hpk, hqk⟩
    exact ⟨⟨p, hp, hpk⟩, q, hq, hqk⟩

/-- They are not mixed if all insert or none does. -/
theorem mixesInsertion_eq_false_iff :
    mixesInsertion pairs = false ↔ (∀ p ∈ pairs, p.kind = .insertion) ∨ ∀ p ∈ pairs, p.kind ≠ .insertion := by
  rw [← Bool.not_eq_true, mixesInsertion_eq_true_iff]
  constructor
  · intro h
    by_cases hall : ∀ p ∈ pairs, p.kind ≠ .insertion
    · exact .inr hall
    · push Not at hall
      obtain ⟨p, hp, hpk⟩ := hall
      refine .inl fun q hq => ?_
      by_contra hqk
      exact h ⟨p, hp, q, hq, hpk, hqk⟩
  · rintro (hall | hall) ⟨p, hp, q, hq, hpk, hqk⟩
    · exact hqk (hall q hq)
    · exact hall p hp hpk

/-! ## Consistent pairs and contexts -/

/-- Exactly the consistent pairs and contexts make a set of rules. -/
theorem exists_ofContexts_iff : (∃ r, ofContexts pairs contexts = .ok r) ↔ Consistent pairs contexts := by
  constructor
  · rintro ⟨r, h⟩
    obtain ⟨hshapes, hmix, hadd, hne, _⟩ := ofContexts_eq_ok_iff.mp h
    refine ⟨length_shapesOf_le_one_iff.mp hshapes, mixesInsertion_eq_false_iff.mp hmix, exists_addPairs_iff.mp ⟨_, hadd⟩, ?_⟩
    rintro rfl
    exact hne (Except.ok.inj hadd).symm
  · rintro ⟨hshape, hinsertion, hunambiguous, hne⟩
    obtain ⟨added, hadd⟩ := exists_addPairs_iff.mpr hunambiguous
    obtain ⟨p, hp⟩ := List.exists_mem_of_ne_nil pairs hne
    obtain ⟨q, hq, _⟩ := (exists_of_addPairs hadd).2 p hp
    refine ⟨⟨added, if shapesOf contexts = [.free] then [] else contexts.eraseDups⟩, ofContexts_eq_ok_iff.mpr ?_⟩
    exact ⟨length_shapesOf_le_one_iff.mpr hshape, mixesInsertion_eq_false_iff.mpr hinsertion, hadd, List.ne_nil_of_mem hq, rfl⟩

/-- A set that is refused is refused for a conflict. -/
theorem conflicts_of_ofContexts (h : ofContexts pairs contexts = .error e) : Conflicts pairs contexts e := by
  unfold ofContexts at h
  split at h
  · next hs =>
    cases h
    have hne : ¬∀ c ∈ contexts, ∀ d ∈ contexts, c.shape = d.shape := by
      rw [← length_shapesOf_le_one_iff]
      omega
    push Not at hne
    obtain ⟨c, hc, d, hd, hcd⟩ := hne
    obtain ⟨hsub, hfound⟩ := eq_shapesOf_iff.mp (rfl : shapesOf contexts = shapesOf contexts)
    exact .mixedShapes hc hd hcd hsub hfound
  · next hs =>
    have hshape := length_shapesOf_le_one_iff.mp (Nat.le_of_not_lt hs)
    split at h
    · next hm =>
      cases h
      obtain ⟨p, hp, q, hq, hpk, hqk⟩ := mixesInsertion_eq_true_iff.mp hm
      exact .mixedInsertion hshape hp hq hpk hqk
    · next hm =>
      have hinsertion := mixesInsertion_eq_false_iff.mp (Bool.eq_false_iff.mpr hm)
      split at h
      · next hadd =>
        cases h
        obtain ⟨before, q, after, p, hpairs, hbefore, hp, hi, ho, rfl⟩ := addPairs_eq_error_iff.mp hadd
        exact .ambiguous hshape hinsertion hpairs hbefore hp hi ho
      · next hadd =>
        cases h
        refine .noRules hshape (List.eq_nil_iff_forall_not_mem.mpr ?_)
        intro p hp
        obtain ⟨q, hq, _⟩ := (exists_of_addPairs hadd).2 p hp
        exact absurd hq List.not_mem_nil
      · nomatch h

/-- All other pairs and contexts are refused for the first condition that is broken. -/
theorem ofContexts_eq_error_iff : ofContexts pairs contexts = .error e ↔ Conflicts pairs contexts e := by
  refine ⟨conflicts_of_ofContexts, ?_⟩
  intro h
  unfold ofContexts
  cases h with
  | mixedShapes hc hd hne hsub hfound =>
    have hs : ¬(shapesOf contexts).length ≤ 1 := fun hle => hne (length_shapesOf_le_one_iff.mp hle _ hc _ hd)
    rw [if_pos (Nat.lt_of_not_le hs), eq_shapesOf_iff.mpr ⟨hsub, hfound⟩]
  | mixedInsertion hshape hp hq hpk hqk =>
    rw [if_neg (Nat.not_lt.mpr (length_shapesOf_le_one_iff.mpr hshape)),
      if_pos (mixesInsertion_eq_true_iff.mpr ⟨_, hp, _, hq, hpk, hqk⟩)]
  | ambiguous hshape hinsertion hpairs hbefore hp hi ho =>
    rw [if_neg (Nat.not_lt.mpr (length_shapesOf_le_one_iff.mpr hshape)),
      if_neg (Bool.eq_false_iff.mp (mixesInsertion_eq_false_iff.mpr hinsertion)),
      addPairs_eq_error_iff.mpr ⟨_, _, _, _, hpairs, hbefore, hp, hi, ho, rfl⟩]
  | noRules hshape hpairs =>
    subst hpairs
    rw [if_neg (Nat.not_lt.mpr (length_shapesOf_le_one_iff.mpr hshape))]
    rfl

/-! ## What is kept -/

/-- A set has the shape of the contexts it is made from, and keeps the first of each unless they are free. -/
theorem shape_spec (hshape : ∀ c ∈ contexts, ∀ d ∈ contexts, c.shape = d.shape)
    (h : r.contexts = if shapesOf contexts = [.free] then [] else contexts.eraseDups) :
    (∀ c ∈ contexts, c.shape = r.shape) ∧ (r.shape = .free → r.contexts = []) ∧
      (r.shape ≠ .free → FirstsOf contexts r.contexts) := by
  by_cases hfree : shapesOf contexts = [.free]
  · rw [if_pos hfree] at h
    have hr : r.shape = .free := by rw [shape, h]
    refine ⟨?_, fun _ => h, fun hn => absurd hr hn⟩
    intro c hc
    have hs := mem_shapesOf_iff.mpr ⟨c, hc, rfl⟩
    rw [hfree, List.mem_singleton] at hs
    rw [hs, hr]
  · rw [if_neg hfree] at h
    have hfirsts : FirstsOf contexts r.contexts := h ▸ firstsOf_eraseDups contexts
    have hr : ∀ c ∈ contexts, c.shape = r.shape := by
      intro c hc
      unfold shape
      split
      · next hnil =>
        have hc := (hfirsts.mem_iff c).mpr hc
        rw [hnil] at hc
        exact absurd hc List.not_mem_nil
      · next d rest hcons => exact hshape c hc d ((hfirsts.mem_iff d).mp (hcons ▸ List.mem_cons_self))
    refine ⟨hr, ?_, fun _ => hfirsts⟩
    intro hrf
    rw [List.eq_nil_iff_forall_not_mem]
    intro c hc
    have hc := (hfirsts.mem_iff c).mp hc
    have hallfree : ∀ s, s ∈ [Shape.free] ↔ ∃ d ∈ contexts, d.shape = s := by
      intro s
      rw [List.mem_singleton]
      constructor
      · rintro rfl
        exact ⟨c, hc, (hr c hc).trans hrf⟩
      · rintro ⟨d, hd, rfl⟩
        exact (hr d hd).trans hrf
    exact hfree (eq_shapesOf_iff.mpr ⟨by decide, hallfree⟩).symm

/-- A set that was made is in normal form. -/
theorem isNormalForm_of_ofContexts (hread : ∀ p ∈ pairs, p.Read) (h : ofContexts pairs contexts = .ok r) :
    r.IsNormalForm pairs contexts := by
  obtain ⟨hshapes, hmix, hadd, hne, hcontexts⟩ := ofContexts_eq_ok_iff.mp h
  have hfirsts : FirstsOf pairs r.pairs := by simpa using firstsOf_addPairs hadd (by simpa using hread) .nil
  obtain ⟨hshape, hfree, hcfirsts⟩ := shape_spec (length_shapesOf_le_one_iff.mp hshapes) hcontexts
  refine ⟨hfirsts, (addPairs_eq_ok hadd (by simp)).1, ?_, hshape, hfree, hcfirsts⟩
  obtain ⟨p, hp⟩ := List.exists_mem_of_ne_nil r.pairs hne
  have hp := (hfirsts.mem_iff p).mp hp
  simp only [inserts, List.any_eq_true, decide_eq_true_eq, hfirsts.mem_iff]
  constructor
  · rintro ⟨q, hq, hqk⟩
    exact (mixesInsertion_eq_false_iff.mp hmix).resolve_right fun hnone => hnone q hq hqk
  · intro hall
    exact ⟨p, hp, hall p hp⟩

/-- Pairs with different inputs are all kept. -/
theorem addPairs_self (hread : ∀ p ∈ pairs, p.Read) (h : (pairs.map (·.input)).Nodup) : addPairs [] pairs = .ok pairs := by
  obtain ⟨added, hadd⟩ : ∃ added, addPairs [] pairs = .ok added := by
    refine exists_addPairs_iff.mpr ?_
    intro p hp q hq hi
    rw [List.inj_on_of_nodup_map h hp hq hi]
  have hfirsts : FirstsOf pairs added := by simpa using firstsOf_addPairs hadd (by simpa using hread) .nil
  rw [hadd, hfirsts.unique (.self h.of_map)]

namespace IsNormalForm

theorem mem_contexts (h : r.IsNormalForm pairs contexts) {c : Context} (hc : c ∈ r.contexts) : c ∈ contexts := by
  by_cases hfree : r.shape = .free
  · rw [h.contexts_free hfree] at hc
    exact absurd hc List.not_mem_nil
  · exact ((h.contexts_firsts hfree).mem_iff c).mp hc

/-- The contexts that were kept are all kept again. -/
theorem contexts_eq (h : r.IsNormalForm pairs contexts) :
    r.contexts = if shapesOf r.contexts = [.free] then [] else r.contexts.eraseDups := by
  by_cases hfree : r.shape = .free
  · rw [h.contexts_free hfree]
    rfl
  · have hne : shapesOf r.contexts ≠ [.free] := by
      intro hs
      obtain ⟨c, hc, hcs⟩ := mem_shapesOf_iff.mp (hs ▸ List.mem_singleton_self _)
      exact hfree ((h.shape_eq c (h.mem_contexts hc)).symm.trans hcs)
    rw [if_neg hne]
    exact FirstsOf.unique (.self (h.contexts_firsts hfree).nodup) (firstsOf_eraseDups _)

/-- A set in normal form is made again from its own pairs and contexts. -/
theorem ofContexts_eq (h : r.IsNormalForm pairs contexts) (hread : ∀ p ∈ pairs, p.Read) (hc : Consistent pairs contexts) :
    ofContexts r.pairs r.contexts = .ok r := by
  have hmem : ∀ p ∈ r.pairs, p ∈ pairs := fun p hp => (h.pairs_firsts.mem_iff p).mp hp
  obtain ⟨p, hp⟩ := List.exists_mem_of_ne_nil pairs hc.pairs_ne_nil
  refine ofContexts_eq_ok_iff.mpr ⟨length_shapesOf_le_one_iff.mpr ?_, mixesInsertion_eq_false_iff.mpr ?_, ?_, ?_, h.contexts_eq⟩
  · intro c hc d hd
    rw [h.shape_eq c (h.mem_contexts hc), h.shape_eq d (h.mem_contexts hd)]
  · exact hc.insertion.imp (fun hall q hq => hall q (hmem q hq)) fun hnone q hq => hnone q (hmem q hq)
  · exact addPairs_self (fun q hq => hread q (hmem q hq)) h.inputs_nodup
  · exact List.ne_nil_of_mem ((h.pairs_firsts.mem_iff p).mpr hp)

end IsNormalForm

/-! ## Sets of rules as they are written -/

/-- Contexts are read before anything is made of them. -/
theorem ofPairs_of_readAs (h : ReadAs sources contexts) (pairs : List Pair) :
    ofPairs pairs sources = ofContexts pairs contexts := by
  rw [ofPairs, readAll_eq_ok_iff.mpr h]

/-- A set of rules is made from contexts that have been read. -/
theorem ofPairs_eq_ok_iff :
    ofPairs pairs sources = .ok r ↔ ∃ contexts, ReadAs sources contexts ∧ ofContexts pairs contexts = .ok r := by
  constructor
  · intro h
    unfold ofPairs at h
    split at h
    · nomatch h
    · next contexts hread => exact ⟨contexts, readAll_eq_ok_iff.mp hread, h⟩
  · rintro ⟨contexts, hread, h⟩
    rwa [ofPairs_of_readAs hread]

/-- What cannot be read or is in conflict is refused. -/
theorem ofPairs_eq_error_iff : ofPairs pairs sources = .error e ↔ Refuses pairs sources e := by
  constructor
  · intro h
    unfold ofPairs at h
    split at h
    · next hread =>
      cases h
      obtain ⟨before, source, after, hsources, hbefore, he⟩ := readAll_eq_error_iff.mp hread
      exact .context hsources hbefore he
    · next hread => exact .conflict (readAll_eq_ok_iff.mp hread) (ofContexts_eq_error_iff.mp h)
  · intro h
    cases h with
    | context hsources hbefore he => rw [ofPairs, readAll_eq_error_iff.mpr ⟨_, _, _, hsources, hbefore, he⟩]
    | conflict hread he => rw [ofPairs_of_readAs hread, ofContexts_eq_error_iff.mpr he]

/-- A context is read back from its own text. -/
theorem readAs_texts (h : ReadAs sources contexts) {kept : List Context} (hmem : ∀ c ∈ kept, c ∈ contexts) :
    ReadAs (kept.map Context.text) kept := by
  refine List.forall₂_map_left_iff.mpr (List.forall₂_same.mpr ?_)
  intro c hc
  obtain ⟨source, _, hs⟩ := exists_of_mem_readAll (readAll_eq_ok_iff.mpr h) c (hmem c hc)
  obtain ⟨ht, hproper⟩ := Context.parse_eq_ok_iff.mp hs
  exact Context.parse_eq_ok_iff.mpr ⟨tokenize_join (isToken_of_mem_tokenize ht), hproper⟩

/-- A set of rules is made exactly if all contexts can be read and have one shape, all pairs insert or none does, pairs with the same
input have the same output, and there is a pair. The first of these that fails is reported: the first context that cannot be read, the
shapes that occur, or the first pair that disagrees with an earlier one, with the output of that one. A set that is made has the pairs
and contexts that were given, each at its first occurrence and once, but no context if they are free; its pairs have different inputs,
and it inserts exactly if all pairs do. Made from its own pairs and the texts of its contexts, it is the same. -/
theorem ofPairs_exact (hread : ∀ p ∈ pairs, p.Read) (sources : List String) :
    ((∃ r, ofPairs pairs sources = .ok r) ↔ ∃ contexts, ReadAs sources contexts ∧ Consistent pairs contexts) ∧
      (∀ e, ofPairs pairs sources = .error e ↔ Refuses pairs sources e) ∧
      ∀ r, ofPairs pairs sources = .ok r →
        (∃ contexts, ReadAs sources contexts ∧ r.IsNormalForm pairs contexts) ∧
          ofPairs r.pairs (r.contexts.map Context.text) = .ok r := by
  refine ⟨?_, fun e => ofPairs_eq_error_iff, ?_⟩
  · simp only [ofPairs_eq_ok_iff, ← exists_ofContexts_iff]
    constructor
    · rintro ⟨r, contexts, hcontexts, h⟩
      exact ⟨contexts, hcontexts, r, h⟩
    · rintro ⟨contexts, hcontexts, r, h⟩
      exact ⟨r, contexts, hcontexts, h⟩
  · intro r h
    obtain ⟨contexts, hcontexts, h⟩ := ofPairs_eq_ok_iff.mp h
    have hnormal := isNormalForm_of_ofContexts hread h
    refine ⟨⟨contexts, hcontexts, hnormal⟩, ?_⟩
    rw [ofPairs_of_readAs (readAs_texts hcontexts fun c => hnormal.mem_contexts)]
    exact hnormal.ofContexts_eq hread (exists_ofContexts_iff.mp ⟨r, h⟩)

/-- A pair and a context that are given twice, the context in two spellings: each is kept once, where it stands first. A second output
for an input is refused, and so is a free context beside one that is not, which is what is reported where both are wrong. -/
theorem ofPairs_exact_repeated :
    ofPairs [.assimilation ⟨"a"⟩ ⟨"b"⟩, .deletion ⟨"c"⟩, .assimilation ⟨"a"⟩ ⟨"b"⟩] ["x _", "y _", " x\t_"] =
        .ok ⟨[.assimilation ⟨"a"⟩ ⟨"b"⟩, .deletion ⟨"c"⟩], [⟨[⟨"x"⟩], []⟩, ⟨[⟨"y"⟩], []⟩]⟩ ∧
      ofPairs [.assimilation ⟨"a"⟩ ⟨"b"⟩, .deletion ⟨"c"⟩] ["x _", "y _"] =
        .ok ⟨[.assimilation ⟨"a"⟩ ⟨"b"⟩, .deletion ⟨"c"⟩], [⟨[⟨"x"⟩], []⟩, ⟨[⟨"y"⟩], []⟩]⟩ ∧
      ofPairs [.assimilation ⟨"a"⟩ ⟨"b"⟩, .deletion ⟨"a"⟩] ["_"] = .error (.ambiguous "a" "b" "Ø") ∧
      ofPairs [.assimilation ⟨"a"⟩ ⟨"b"⟩, .deletion ⟨"a"⟩] ["x _", "_"] = .error (.mixedShapes [.free, .left]) := by
  have hab : (Pair.assimilation ⟨"a"⟩ ⟨"b"⟩).Read := ⟨"a", "b", by rfl⟩
  have hc : (Pair.deletion ⟨"c"⟩).Read := ⟨"c", "", by rfl⟩
  have ha : (Pair.deletion ⟨"a"⟩).Read := ⟨"a", "Ø", by rfl⟩
  have hrepeated : ofPairs [.assimilation ⟨"a"⟩ ⟨"b"⟩, .deletion ⟨"c"⟩, .assimilation ⟨"a"⟩ ⟨"b"⟩] ["x _", "y _", " x\t_"] =
      .ok ⟨[.assimilation ⟨"a"⟩ ⟨"b"⟩, .deletion ⟨"c"⟩], [⟨[⟨"x"⟩], []⟩, ⟨[⟨"y"⟩], []⟩]⟩ := by rfl
  have hkept := ((ofPairs_exact (by simp [hab, hc]) _).2.2 _ hrepeated).2
  have hrefuses : ∀ sources e, ofPairs [.assimilation ⟨"a"⟩ ⟨"b"⟩, .deletion ⟨"a"⟩] sources = .error e ↔
      Refuses [.assimilation ⟨"a"⟩ ⟨"b"⟩, .deletion ⟨"a"⟩] sources e := fun sources =>
    (ofPairs_exact (by simp [hab, ha]) sources).2.1
  have hfree : ReadAs ["_"] [.free] := .cons (by rfl) .nil
  have hleft : ReadAs ["x _", "_"] [⟨[⟨"x"⟩], []⟩, .free] := .cons (by rfl) (.cons (by rfl) .nil)
  refine ⟨hrepeated, hkept, (hrefuses _ _).mpr (.conflict hfree ?_), (hrefuses _ _).mpr (.conflict hleft ?_)⟩
  · have hknown : Unambiguous [.assimilation ⟨"a"⟩ ⟨"b"⟩] := by simp [Unambiguous]
    exact @Conflicts.ambiguous _ _ [.assimilation ⟨"a"⟩ ⟨"b"⟩] [] (.assimilation ⟨"a"⟩ ⟨"b"⟩) (.deletion ⟨"a"⟩) (by simp)
      (.inr (by simp [Pair.kind])) rfl hknown List.mem_cons_self rfl (by decide)
  · refine .mixedShapes (List.mem_cons_of_mem _ List.mem_cons_self) List.mem_cons_self (by decide) (by decide) ?_
    intro s
    cases s <;> simp [Context.shape, Context.free]

end RuleSet

end ReplaceRules
