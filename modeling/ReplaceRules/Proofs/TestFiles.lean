import ReplaceRules.Suite.Reader
import ReplaceRules.Suite.Writer

/-!
# The reader of test files and their grammar

Every reader takes exactly the items that the grammar puts together for its part of a file. What a loop takes is not told by its
part alone: it goes on as long as another member may begin, so the item that comes next is part of what is said of it. The lemmas
follow the readers from the smallest to the largest. The loops are taken by their recursion where they have read something, and by
the constructors of the grammar where they have to read it.

Main statement: the reader accepts exactly the files of the grammar and keeps every suite, so it gets back what was written
(`Suite.ofItems_exact`).
-/

namespace ReplaceRules

open Yaml (Event Item)

/-- The name of a kind is the only text that is read as it. -/
theorem Kind.ofText?_eq_some_iff {name : String} {kind : Kind} : Kind.ofText? name = some kind ↔ name = kind.text := by
  constructor
  · intro h
    have hk := List.find?_some h
    exact (of_decide_eq_true hk).symm
  · rintro rfl
    cases kind <;> rfl

/-- A text is read as what it says, and what it says is written so that it is read again. -/
theorem Xfail.ofText_text_ofText (text : String) : ofText (ofText text).text = ofText text := by
  have hcases : ofText text = .flag false ∨ ofText text = .flag true ∨ ofText text = .reason text := by
    unfold ofText
    split
    · exact .inl rfl
    split
    · exact .inr (.inl rfl)
    · exact .inr (.inr rfl)
  rcases hcases with h | h | h
  · rw [h]; rfl
  · rw [h]; rfl
  · rw [h, Xfail.text, h]

/-- What can be written is yes, no, and a reason that is no word for these. -/
theorem Xfail.ofText_text_eq_iff {x : Xfail} :
    ofText x.text = x ↔ ∀ text, x = .reason text → text ∉ noWords ∧ text ∉ yesWords := by
  cases x with
  | flag expected => cases expected <;> simp [ofText, Xfail.text, noWords, yesWords]
  | reason text =>
    by_cases hn : text ∈ noWords
    · simp [ofText, Xfail.text, hn]
    by_cases hy : text ∈ yesWords
    · simp [ofText, Xfail.text, hn, hy]
    · simp [ofText, Xfail.text, hn, hy]

namespace Suite.Grammar

/-- A sequence of scalars before other items, with its ends in view. -/
theorem scalars_append (values : List String) (left : List Item) :
    scalars values ++ left = .event .sequenceStart :: (values.map scalar ++ .event .sequenceEnd :: left) := by
  simp [scalars]

/-- A mapping before other items, with its ends in view. -/
theorem mapping_append (entries left : List Item) :
    mapping entries ++ left = .event .mappingStart :: (entries ++ .event .mappingEnd :: left) := by
  simp [mapping]

/-- A sequence before other items, with its ends in view. -/
theorem sequence_append (members left : List Item) :
    sequence members ++ left = .event .sequenceStart :: (members ++ .event .sequenceEnd :: left) := by
  simp [sequence]

/-- Every test begins a sequence. -/
theorem IsTest.exists_eq_cons {part : List Item} {t : Test} (h : IsTest part t) : ∃ rest, part = .event .sequenceStart :: rest := by
  cases h <;> exact ⟨_, rfl⟩

end Suite.Grammar

namespace Suite.Reader

open Suite.Grammar

/-! ## The smallest readers -/

/-- No scalar comes next. -/
def NoScalar (items : List Item) : Prop := ∀ value rest, items ≠ scalar value :: rest

theorem noScalar_event {e : Event} (h : ∀ value, e ≠ .scalar value) (rest : List Item) : NoScalar (.event e :: rest) := by
  intro value rest' he
  exact h value (Item.event.inj (List.cons.inj he).1)

variable {items left : List Item}

/-- The event that is wanted is taken, and no other one. -/
theorem readEvent_eq_ok_iff {wanted : Event} {refusal : Option Item → ReadError} :
    readEvent wanted refusal items = .ok left ↔ items = .event wanted :: left := by
  cases items with
  | nil => simp [readEvent]
  | cons item rest => by_cases h : item = .event wanted <;> simp [readEvent, h]

theorem readScalar_eq_ok_iff {value : String} : readScalar items = .ok (value, left) ↔ items = scalar value :: left := by
  unfold readScalar
  split
  · simp [scalar]
  · next h =>
    constructor
    · intro hr
      cases hr
    · rintro rfl
      exact absurd rfl (h value left)

/-- What is read is mapped, and what is left stays. -/
theorem mapValue_eq_ok_iff {α β : Type} {f : α → β} {r : Except ReadError (α × List Item)} {b : β} :
    mapValue f r = .ok (b, left) ↔ ∃ a, r = .ok (a, left) ∧ b = f a := by
  constructor
  · intro h
    obtain ⟨a, hr, hf⟩ := mapValue_ok h
    exact ⟨a, hr, hf.symm⟩
  · rintro ⟨a, rfl, rfl⟩
    rfl

/-- All scalars up to the first other item are taken. -/
theorem takeScalars_eq_iff {values : List String} :
    takeScalars items = (values, left) ↔ items = values.map scalar ++ left ∧ NoScalar left := by
  constructor
  · intro h
    fun_induction takeScalars items generalizing values with
    | case1 value rest values' left' ht ih =>
      obtain ⟨rfl, rfl⟩ := Prod.mk.inj h
      obtain ⟨hrest, hnext⟩ := ih ht
      exact ⟨congrArg (scalar value :: ·) hrest, hnext⟩
    | case2 items hn =>
      obtain ⟨rfl, rfl⟩ := Prod.mk.inj h
      exact ⟨rfl, hn⟩
  · rintro ⟨rfl, hnext⟩
    induction values with
    | nil => rw [List.map_nil, List.nil_append, takeScalars.eq_2 _ hnext]
    | cons value values ih => rw [List.map_cons, List.cons_append, scalar, takeScalars, ih]

/-- A sequence of scalars is taken. -/
theorem readScalars_eq_ok_iff {values : List String} :
    readScalars items = .ok (values, left) ↔ items = scalars values ++ left := by
  simp only [readScalars, bind_eq_ok_iff, pure_eq_ok_iff, readEvent_eq_ok_iff, scalars_append]
  constructor
  · rintro ⟨inner, rfl, last, hlast, hv⟩
    cases ht : takeScalars inner with
    | mk values' rest =>
      rw [ht] at hlast hv
      obtain ⟨rfl, rfl⟩ := Prod.mk.inj hv
      obtain ⟨rfl, _⟩ := takeScalars_eq_iff.mp ht
      rw [← hlast]
  · rintro rfl
    have ht : takeScalars (values.map scalar ++ .event .sequenceEnd :: left) = (values, .event .sequenceEnd :: left) :=
      takeScalars_eq_iff.mpr ⟨rfl, noScalar_event (by simp) _⟩
    exact ⟨_, rfl, left, by rw [ht], by rw [ht]⟩

theorem readKind_eq_ok_iff {kind : Kind} : readKind items = .ok (kind, left) ↔ items = scalar kind.text :: left := by
  simp only [readKind, bind_eq_ok_iff]
  constructor
  · rintro ⟨⟨name, rest⟩, hname, hkind⟩
    dsimp only at hkind
    split at hkind
    · next k hk =>
      cases hkind
      rw [readScalar_eq_ok_iff.mp hname, Kind.ofText?_eq_some_iff.mp hk]
    · cases hkind
  · rintro rfl
    refine ⟨(kind.text, left), readScalar_eq_ok_iff.mpr rfl, ?_⟩
    simp only [Kind.ofText?_eq_some_iff.mpr rfl]
    rfl

/-! ## Definitions of rules -/

/-- An entry sets what its key says. -/
theorem readRuleEntry_eq_ok_iff {d d' : RuleDefinition} {key : String} :
    readRuleEntry d key items = .ok (d', left) ↔
      (key = "pairs" ∧ ∃ pairs, items = scalars pairs ++ left ∧ d' = { d with pairs }) ∨
      (key = "contexts" ∧ ∃ contexts, items = scalars contexts ++ left ∧ d' = { d with contexts }) ∨
      (key = "kind" ∧ ∃ kind, items = scalar (Kind.text kind) :: left ∧ d' = { d with kind := some kind }) ∨
      key = "prefix" ∧ ∃ text, items = scalar text :: left ∧ d' = { d with initialOutput := some text } := by
  unfold readRuleEntry
  split
  · next hk => simp [hk, mapValue_eq_ok_iff, readScalars_eq_ok_iff]
  split
  · next hk => simp [hk, mapValue_eq_ok_iff, readScalars_eq_ok_iff]
  split
  · next hk => simp [hk, mapValue_eq_ok_iff, readKind_eq_ok_iff]
  split
  · next hk => simp [hk, mapValue_eq_ok_iff, readScalar_eq_ok_iff]
  · simp [*]

/-- A key is read with what follows it, and then the later entries. -/
theorem readRuleEntries_scalar {d d' : RuleDefinition} {key : String} {rest more : List Item}
    (h : readRuleEntry d key rest = .ok (d', more)) : readRuleEntries d (scalar key :: rest) = readRuleEntries d' more := by
  rw [scalar, readRuleEntries]
  split
  · next he => cases h.symm.trans he
  · next he =>
    cases h.symm.trans he
    rfl

/-- Entries of a definition are taken as long as there is a scalar, each of them after those before it. -/
theorem readRuleEntries_eq_ok_iff {d d' : RuleDefinition} :
    readRuleEntries d items = .ok (d', left) ↔ ∃ entries, items = entries ++ left ∧ RuleEntries d entries d' ∧ NoScalar left := by
  constructor
  · intro h
    fun_induction readRuleEntries d items with
    | case1 => cases h
    | case2 d key rest d₁ more hentry ih =>
      obtain ⟨entries, rfl, hentries, hnext⟩ := ih h
      rcases readRuleEntry_eq_ok_iff.mp hentry with ⟨rfl, pairs, rfl, rfl⟩ | ⟨rfl, contexts, rfl, rfl⟩ | ⟨rfl, kind, rfl, rfl⟩ |
        ⟨rfl, text, rfl, rfl⟩
      · exact ⟨_, by simp [scalar], .pairs pairs hentries, hnext⟩
      · exact ⟨_, by simp [scalar], .contexts contexts hentries, hnext⟩
      · exact ⟨_, by simp [scalar], .kind kind hentries, hnext⟩
      · exact ⟨_, by simp [scalar], .initialOutput text hentries, hnext⟩
    | case3 d items hn =>
      cases h
      exact ⟨[], rfl, .none _, hn⟩
  · rintro ⟨entries, rfl, hentries, hnext⟩
    induction hentries with
    | none d => rw [List.nil_append, readRuleEntries.eq_2 _ _ hnext]
    | pairs pairs _ ih =>
      rw [← ih, List.append_assoc, List.cons_append]
      exact readRuleEntries_scalar (readRuleEntry_eq_ok_iff.mpr (.inl ⟨rfl, pairs, rfl, rfl⟩))
    | contexts contexts _ ih =>
      rw [← ih, List.append_assoc, List.cons_append]
      exact readRuleEntries_scalar (readRuleEntry_eq_ok_iff.mpr (.inr (.inl ⟨rfl, contexts, rfl, rfl⟩)))
    | kind kind _ ih =>
      rw [← ih]
      exact readRuleEntries_scalar (readRuleEntry_eq_ok_iff.mpr (.inr (.inr (.inl ⟨rfl, kind, rfl, rfl⟩))))
    | initialOutput text _ ih =>
      rw [← ih]
      exact readRuleEntries_scalar (readRuleEntry_eq_ok_iff.mpr (.inr (.inr (.inr ⟨rfl, text, rfl, rfl⟩))))

/-- A mapping is taken as the definition that its entries make, if that has pairs. -/
theorem readRules_eq_ok_iff {d : RuleDefinition} :
    readRules items = .ok (d, left) ↔
      ∃ entries, items = mapping entries ++ left ∧ RuleEntries { pairs := [] } entries d ∧ d.pairs ≠ [] := by
  simp only [readRules, bind_eq_ok_iff, readEvent_eq_ok_iff, mapping_append]
  constructor
  · rintro ⟨inner, rfl, ⟨d', rest⟩, hread, last, rfl, hd⟩
    obtain ⟨entries, rfl, hentries, _⟩ := readRuleEntries_eq_ok_iff.mp hread
    split at hd
    · cases hd
    · next hne =>
      cases hd
      exact ⟨entries, rfl, hentries, by simpa using hne⟩
  · rintro ⟨entries, rfl, hentries, hne⟩
    refine ⟨_, rfl, (d, .event .mappingEnd :: left), ?_, left, rfl, ?_⟩
    · exact readRuleEntries_eq_ok_iff.mpr ⟨entries, rfl, hentries, noScalar_event (by simp) _⟩
    · rw [if_neg (by simpa using hne)]
      rfl

/-! ## Tests -/

/-- Whether a failure is expected is taken from any scalar. -/
theorem readXfail_eq_ok_iff {x : Xfail} :
    readXfail items = .ok (x, left) ↔ ∃ text, items = scalar text :: left ∧ x = .ofText text := by
  unfold readXfail
  split
  · next value rest =>
    constructor
    · intro h
      cases h
      exact ⟨value, rfl, rfl⟩
    · rintro ⟨text, he, rfl⟩
      cases he
      rfl
  · next hn =>
    constructor
    · intro h
      cases h
    · rintro ⟨text, rfl, _⟩
      exact absurd rfl (hn text left)

/-- The mapping of a test has one key. -/
theorem readTestEntry_eq_ok_iff {key : String} {x : Xfail} :
    readTestEntry key items = .ok (x, left) ↔ key = "xfail" ∧ ∃ text, items = scalar text :: left ∧ x = .ofText text := by
  unfold readTestEntry
  split
  · next hk => simp only [hk, readXfail_eq_ok_iff, true_and]
  · next hk => simp [hk]

/-- A key is read with what follows it, and then the later entries. -/
theorem readTestEntries_scalar {x x' : Xfail} {key : String} {rest more : List Item}
    (h : readTestEntry key rest = .ok (x', more)) : readTestEntries x (scalar key :: rest) = readTestEntries x' more := by
  rw [scalar, readTestEntries]
  split
  · next he => cases h.symm.trans he
  · next he =>
    cases h.symm.trans he
    rfl

/-- Entries of a test are taken as long as there is a scalar. -/
theorem readTestEntries_eq_ok_iff {x x' : Xfail} :
    readTestEntries x items = .ok (x', left) ↔ ∃ entries, items = entries ++ left ∧ XfailEntries x entries x' ∧ NoScalar left := by
  constructor
  · intro h
    fun_induction readTestEntries x items with
    | case1 => cases h
    | case2 x key rest x₁ more hentry ih =>
      obtain ⟨entries, rfl, hentries, hnext⟩ := ih h
      obtain ⟨rfl, text, rfl, rfl⟩ := readTestEntry_eq_ok_iff.mp hentry
      exact ⟨_, by simp [scalar], .xfail text hentries, hnext⟩
    | case3 x items hn =>
      cases h
      exact ⟨[], rfl, .none _, hn⟩
  · rintro ⟨entries, rfl, hentries, hnext⟩
    induction hentries with
    | none x => rw [List.nil_append, readTestEntries.eq_2 _ _ hnext]
    | xfail text _ ih =>
      rw [← ih]
      exact readTestEntries_scalar (readTestEntry_eq_ok_iff.mpr ⟨rfl, text, rfl, rfl⟩)

/-- A mapping is read if one begins. -/
theorem readTestMapping_eq_ok_iff {x : Xfail} :
    readTestMapping items = .ok (x, left) ↔
      (∃ entries, items = mapping entries ++ left ∧ XfailEntries (.flag false) entries x) ∨
      items = left ∧ x = .flag false ∧ ∀ rest, left ≠ .event .mappingStart :: rest := by
  unfold readTestMapping
  split
  · next rest =>
    simp only [bind_eq_ok_iff, pure_eq_ok_iff, readEvent_eq_ok_iff, mapping_append, List.cons.injEq, true_and]
    constructor
    · rintro ⟨⟨x', rest⟩, hread, last, rfl, hx⟩
      cases hx
      obtain ⟨entries, rfl, hentries, _⟩ := readTestEntries_eq_ok_iff.mp hread
      exact .inl ⟨entries, rfl, hentries⟩
    · rintro (⟨entries, rfl, hentries⟩ | ⟨rfl, _, hnext⟩)
      · refine ⟨(x, .event .mappingEnd :: left), ?_, left, rfl, rfl⟩
        exact readTestEntries_eq_ok_iff.mpr ⟨entries, rfl, hentries, noScalar_event (by simp) _⟩
      · exact absurd rfl (hnext rest)
  · next hn =>
    constructor
    · intro h
      cases h
      exact .inr ⟨rfl, rfl, hn⟩
    · rintro (⟨entries, rfl, _⟩ | ⟨rfl, rfl, _⟩)
      · exact absurd (mapping_append entries left) (hn _)
      · rfl

/-- Three texts are read if there are three. -/
theorem readTestTexts_eq_ok_iff {description : Option String} {input expected : String} :
    readTestTexts items = .ok ((description, input, expected), left) ↔
      items = (description.toList ++ [input, expected]).map scalar ++ left ∧ (description = none → NoScalar left) := by
  simp only [readTestTexts, bind_eq_ok_iff, Prod.exists, readScalar_eq_ok_iff]
  constructor
  · rintro ⟨first, _, rfl, second, rest, rfl, htexts⟩
    split at htexts
    · next third rest =>
      cases htexts
      exact ⟨rfl, by simp⟩
    · next hn =>
      cases htexts
      exact ⟨rfl, fun _ => hn⟩
  · rintro ⟨rfl, hnext⟩
    cases description with
    | none =>
      refine ⟨input, _, rfl, expected, left, rfl, ?_⟩
      split
      · next third rest => exact absurd rfl (hnext rfl third rest)
      · rfl
    | some text => exact ⟨text, _, rfl, input, _, rfl, rfl⟩

/-- A test is taken exactly where the grammar has one. -/
theorem readTest_eq_ok_iff {t : Test} : readTest items = .ok (t, left) ↔ ∃ part, items = part ++ left ∧ IsTest part t := by
  simp only [readTest, bind_eq_ok_iff, pure_eq_ok_iff, readEvent_eq_ok_iff]
  constructor
  · rintro ⟨inner, rfl, ⟨⟨description, input, expected⟩, rest⟩, htexts, ⟨xfail, rest'⟩, hmapping, last, rfl, ht⟩
    cases ht
    obtain ⟨rfl, _⟩ := readTestTexts_eq_ok_iff.mp htexts
    rcases readTestMapping_eq_ok_iff.mp hmapping with ⟨entries, rfl, hentries⟩ | ⟨rfl, rfl, _⟩
    · exact ⟨_, by simp [Grammar.sequence, texts], .withMapping hentries⟩
    · exact ⟨_, by simp [Grammar.sequence, texts], .plain _ rfl⟩
  · rintro ⟨part, rfl, ht⟩
    cases ht with
    | plain _ hx =>
      rw [sequence_append]
      refine ⟨_, rfl, ((t.description, t.input, t.expected), .event .sequenceEnd :: left), ?_,
        (t.xfail, .event .sequenceEnd :: left), ?_, left, rfl, rfl⟩
      · exact readTestTexts_eq_ok_iff.mpr ⟨rfl, fun _ => noScalar_event (by simp) _⟩
      · exact readTestMapping_eq_ok_iff.mpr (.inr ⟨rfl, hx, by simp⟩)
    | @withMapping _ entries hentries =>
      rw [sequence_append, List.append_assoc]
      refine ⟨_, rfl, ((t.description, t.input, t.expected), mapping entries ++ .event .sequenceEnd :: left), ?_,
        (t.xfail, .event .sequenceEnd :: left), ?_, left, rfl, rfl⟩
      · exact readTestTexts_eq_ok_iff.mpr ⟨rfl, fun _ => noScalar_event (by simp) _⟩
      · exact readTestMapping_eq_ok_iff.mpr (.inl ⟨entries, rfl, hentries⟩)

/-- A test is read, and then the later tests. -/
theorem readTestList_test {t : Test} {rest more : List Item} (h : readTest (.event .sequenceStart :: rest) = .ok (t, more)) :
    readTestList (.event .sequenceStart :: rest) = mapValue (t :: ·) (readTestList more) := by
  rw [readTestList]
  split
  · next he => cases h.symm.trans he
  · next he =>
    cases h.symm.trans he
    rfl

/-- Tests are taken as long as a sequence starts. -/
theorem readTestList_eq_ok_iff {tests : List Test} :
    readTestList items = .ok (tests, left) ↔
      ∃ members, items = members ++ left ∧ AreTests members tests ∧ ∀ rest, left ≠ .event .sequenceStart :: rest := by
  constructor
  · intro h
    fun_induction readTestList items generalizing tests with
    | case1 => cases h
    | case2 rest t more ht ih =>
      obtain ⟨later, hlater, rfl⟩ := mapValue_eq_ok_iff.mp h
      obtain ⟨members, rfl, hmembers, hnext⟩ := ih hlater
      obtain ⟨part, hpart, ht⟩ := readTest_eq_ok_iff.mp ht
      exact ⟨part ++ members, by rw [hpart, List.append_assoc], .test ht hmembers, hnext⟩
    | case3 items hn =>
      cases h
      exact ⟨[], rfl, .none, hn⟩
  · rintro ⟨members, rfl, hmembers, hnext⟩
    induction hmembers with
    | none => rw [List.nil_append, readTestList.eq_2 _ hnext]
    | @test part later t tests ht _ ih =>
      obtain ⟨rest, rfl⟩ := ht.exists_eq_cons
      have hread : readTest (.event .sequenceStart :: (rest ++ later ++ left)) = .ok (t, later ++ left) :=
        readTest_eq_ok_iff.mpr ⟨_, by simp, ht⟩
      rw [List.cons_append, List.cons_append, readTestList_test hread, ih]
      rfl

/-- A sequence of tests is taken. -/
theorem readTests_eq_ok_iff {tests : List Test} :
    readTests items = .ok (tests, left) ↔ ∃ members, items = sequence members ++ left ∧ AreTests members tests := by
  simp only [readTests, bind_eq_ok_iff, pure_eq_ok_iff, readEvent_eq_ok_iff, sequence_append]
  constructor
  · rintro ⟨inner, rfl, ⟨tests', rest⟩, hread, last, rfl, ht⟩
    cases ht
    obtain ⟨members, rfl, hmembers, _⟩ := readTestList_eq_ok_iff.mp hread
    exact ⟨members, rfl, hmembers⟩
  · rintro ⟨members, rfl, hmembers⟩
    refine ⟨_, rfl, (tests, .event .sequenceEnd :: left), ?_, left, rfl, rfl⟩
    exact readTestList_eq_ok_iff.mpr ⟨members, rfl, hmembers, by simp⟩

/-! ## Suites -/

/-- A definition is kept for the tests behind it. -/
theorem readSuites_rules {rules : Option RuleDefinition} {d : RuleDefinition} {rest more : List Item}
    (h : readRules rest = .ok (d, more)) : readSuites rules (scalar "rules" :: rest) = readSuites (some d) more := by
  rw [scalar, readSuites, if_pos rfl]
  split
  · next he => cases h.symm.trans he
  · next he =>
    cases h.symm.trans he
    rfl

/-- Tests make a suite with the definition that is kept, which stays. -/
theorem readSuites_tests {d : RuleDefinition} {tests : List Test} {rest more : List Item} (h : readTests rest = .ok (tests, more)) :
    readSuites (some d) (scalar "tests" :: rest) = mapValue ({ rules := d, tests } :: ·) (readSuites (some d) more) := by
  rw [scalar, readSuites, if_neg (by decide), if_pos rfl]
  split
  · next he => cases h.symm.trans he
  · next he =>
    cases h.symm.trans he
    rfl

/-- Entries of a file are taken as long as there is a scalar, and make the suites of the grammar. -/
theorem readSuites_eq_ok_iff {rules : Option RuleDefinition} {suites : List Suite} :
    readSuites rules items = .ok (suites, left) ↔
      ∃ entries, items = entries ++ left ∧ Entries rules entries suites ∧ NoScalar left := by
  constructor
  · intro h
    fun_induction readSuites rules items generalizing suites with
    | case1 => cases h
    | case2 rules rest d more hrules ih =>
      obtain ⟨entries, rfl, hentries, hnext⟩ := ih h
      obtain ⟨inner, rfl, hinner, hne⟩ := readRules_eq_ok_iff.mp hrules
      exact ⟨_, by simp [scalar], .rules hinner hne hentries, hnext⟩
    | case3 => cases h
    | case4 => cases h
    | case5 rest tests more htests d _ ih =>
      obtain ⟨later, hlater, rfl⟩ := mapValue_eq_ok_iff.mp h
      obtain ⟨entries, rfl, hentries, hnext⟩ := ih hlater
      obtain ⟨members, rfl, hmembers⟩ := readTests_eq_ok_iff.mp htests
      exact ⟨_, by simp [scalar], .tests hmembers hentries, hnext⟩
    | case6 => cases h
    | case7 rules items hn =>
      cases h
      exact ⟨[], rfl, .none _, hn⟩
  · rintro ⟨entries, rfl, hentries, hnext⟩
    induction hentries with
    | none rules => rw [List.nil_append, readSuites.eq_2 _ _ hnext]
    | @rules _ d inner later suites hinner hne _ ih =>
      rw [← ih, List.append_assoc, List.cons_append]
      exact readSuites_rules (readRules_eq_ok_iff.mpr ⟨inner, rfl, hinner, hne⟩)
    | @tests d members later tests suites hmembers _ ih =>
      rw [List.append_assoc, List.cons_append, readSuites_tests (readTests_eq_ok_iff.mpr ⟨members, rfl, hmembers⟩), ih]
      rfl

/-- A stream has to be in UTF-8. -/
theorem readStreamStart_eq_ok_iff : readStreamStart items = .ok left ↔ items = .event (.streamStart (some .utf8)) :: left := by
  unfold readStreamStart
  split
  · next encoding rest =>
    split
    · next he => simp [he]
    · next he => simp [he]
  · next hn =>
    constructor
    · intro h
      cases h
    · rintro rfl
      exact absurd rfl (hn .utf8 left)

end Suite.Reader

open Suite.Grammar Suite.Reader

/-- The reader accepts exactly the files of the grammar. -/
theorem Suite.ofItems_eq_ok_iff {items : List Item} {suites : List Suite} : ofItems items = .ok suites ↔ IsFile items suites := by
  simp only [ofItems, bind_eq_ok_iff, pure_eq_ok_iff, readStreamStart_eq_ok_iff, readEvent_eq_ok_iff]
  constructor
  · rintro ⟨_, rfl, _, rfl, inner, rfl, ⟨suites', rest⟩, hread, _, hrest, _, rfl, later, rfl, rfl⟩
    obtain ⟨entries, rfl, hentries, _⟩ := readSuites_eq_ok_iff.mp hread
    refine ⟨entries, later, ?_, hentries⟩
    dsimp only at hrest
    simp [file, mapping, hrest]
  · rintro ⟨entries, later, rfl, hentries⟩
    refine ⟨_, rfl, _, rfl, entries ++ .event .mappingEnd :: .event .documentEnd :: .event .streamEnd :: later, ?_,
      (suites, .event .mappingEnd :: .event .documentEnd :: .event .streamEnd :: later), ?_, _, rfl, _, rfl, later, rfl, rfl⟩
    · simp [mapping]
    · exact readSuites_eq_ok_iff.mpr ⟨entries, rfl, hentries, noScalar_event (by simp) _⟩

/-! ## What is written is in the grammar -/

namespace Suite.Grammar

/-- The entries that are written for a definition make this definition. -/
theorem ruleEntries_ruleEntries (d : RuleDefinition) : RuleEntries { pairs := [] } (ruleEntries d) d := by
  obtain ⟨pairs, contexts, kind, text⟩ := d
  have htext : RuleEntries ⟨pairs, contexts, kind, none⟩ (text.toList.flatMap fun text => [scalar "prefix", scalar text])
      ⟨pairs, contexts, kind, text⟩ := by
    cases text with
    | none => exact .none _
    | some text => exact .initialOutput text (.none _)
  have hkind : RuleEntries ⟨pairs, contexts, none, none⟩
      ((kind.toList.flatMap fun kind => [scalar "kind", scalar kind.text]) ++
        text.toList.flatMap fun text => [scalar "prefix", scalar text]) ⟨pairs, contexts, kind, text⟩ := by
    cases kind with
    | none => exact htext
    | some kind => exact .kind kind htext
  rw [ruleEntries, List.append_assoc, List.append_assoc]
  exact .pairs pairs (.contexts contexts hkind)

/-- What is written for a test is this test, unless its reason is a word for yes or no. -/
theorem isTest_testItems {t : Test} (h : Xfail.ofText t.xfail.text = t.xfail) : IsTest (testItems t) t := by
  unfold testItems
  split
  · next hx => exact .plain t hx
  · refine .withMapping (.xfail t.xfail.text ?_)
    rw [h]
    exact .none t.xfail

/-- What is written for tests are these tests. -/
theorem areTests_testItems {tests : List Test} (h : ∀ t ∈ tests, Xfail.ofText t.xfail.text = t.xfail) :
    AreTests (tests.flatMap testItems) tests := by
  induction tests with
  | nil => exact .none
  | cons t rest ih =>
    exact .test (isTest_testItems (h t List.mem_cons_self)) (ih fun t' ht' => h t' (List.mem_cons_of_mem t ht'))

/-- Each suite is written with its own rules, whatever rules were given before. -/
theorem entries_suiteEntries {suites : List Suite} (h : ∀ s ∈ suites, s.IsWritable) (before : Option RuleDefinition) :
    Entries before (suites.flatMap suiteEntries) suites := by
  induction suites generalizing before with
  | nil => exact .none before
  | cons s rest ih =>
    obtain ⟨hpairs, htests⟩ := h s List.mem_cons_self
    have hrest := ih (fun s' hs' => h s' (List.mem_cons_of_mem s hs')) (some s.rules)
    rw [List.flatMap_cons, suiteEntries, List.append_assoc]
    exact .rules (ruleEntries_ruleEntries s.rules) hpairs (.tests (areTests_testItems htests) hrest)

/-! ## What is read can be written -/

/-- No reason that is read is a word for yes or no. -/
theorem XfailEntries.ofText_text {x x' : Xfail} {entries : List Item} (h : XfailEntries x entries x')
    (hx : Xfail.ofText x.text = x) : Xfail.ofText x'.text = x' := by
  induction h with
  | none x => exact hx
  | xfail text _ ih => exact ih (Xfail.ofText_text_ofText text)

theorem IsTest.ofText_text {part : List Item} {t : Test} (h : IsTest part t) : Xfail.ofText t.xfail.text = t.xfail := by
  cases h with
  | plain _ hx => rw [hx]; rfl
  | withMapping hentries => exact hentries.ofText_text rfl

theorem AreTests.ofText_text {members : List Item} {tests : List Test} (h : AreTests members tests) :
    ∀ t ∈ tests, Xfail.ofText t.xfail.text = t.xfail := by
  induction h with
  | none => simp
  | test ht _ ih => exact List.forall_mem_cons.mpr ⟨ht.ofText_text, ih⟩

/-- The suites of a file can be written, as the rules given before its entries have pairs. -/
theorem Entries.isWritable {before : Option RuleDefinition} {entries : List Item} {suites : List Suite}
    (h : Entries before entries suites) (hb : ∀ d, before = some d → d.pairs ≠ []) : ∀ s ∈ suites, s.IsWritable := by
  induction h with
  | none => simp
  | rules _ hne _ ih =>
    apply ih
    rintro d' ⟨⟩
    exact hne
  | @tests d _ _ _ _ hmembers _ ih =>
    exact List.forall_mem_cons.mpr ⟨⟨hb d rfl, hmembers.ofText_text⟩, ih hb⟩

end Suite.Grammar

/-- Reading and writing get some suites back exactly if they can be written. -/
theorem Suite.ofItems_toItems_eq_ok_iff {suites : List Suite} :
    ofItems (toItems suites) = .ok suites ↔ ∀ s ∈ suites, s.IsWritable := by
  rw [ofItems_eq_ok_iff]
  constructor
  · rintro ⟨_, _, _, hentries⟩
    exact hentries.isWritable (by simp)
  · intro h
    exact ⟨_, [], (List.append_nil _).symm, entries_suiteEntries h none⟩

/-- The reader accepts exactly the files of the grammar, with one suite for each `tests` entry. What is written for some suites is
read as these suites exactly if every suite has pairs and no reason for an expected failure is a word for yes or no. -/
theorem Suite.ofItems_exact :
    (∀ items suites, ofItems items = .ok suites ↔ IsFile items suites) ∧
    ∀ suites, ofItems (toItems suites) = .ok suites ↔
      ∀ s ∈ suites, s.rules.pairs ≠ [] ∧
        ∀ t ∈ s.tests, ∀ text, t.xfail = .reason text → text ∉ Xfail.noWords ∧ text ∉ Xfail.yesWords := by
  refine ⟨fun _ _ => ofItems_eq_ok_iff, ?_⟩
  intro suites
  rw [ofItems_toItems_eq_ok_iff]
  simp only [IsWritable, Xfail.ofText_text_eq_iff]

/-- The second suite has its own rules, and its tests are those behind them. -/
theorem Suite.ofItems_exact_two :
    let first : Suite := ⟨{ pairs := ["a -> b"], contexts := ["x _"], kind := some .assimilation },
      [{ description := some "after x", input := "x a", expected := "x b" },
        { input := "a", expected := "b", xfail := .reason "no context" }]⟩
    let second : Suite := ⟨{ pairs := ["-> c"], initialOutput := some "d" },
      [{ input := "", expected := "d c", xfail := .flag true }]⟩
    ofItems (toItems [first, second]) = .ok [first, second] ∧ IsFile (toItems [first, second]) [first, second] := by
  intro first second
  have hread := (ofItems_exact.2 [first, second]).mpr (by simp [first, second, Xfail.noWords, Xfail.yesWords])
  exact ⟨hread, (ofItems_exact.1 _ _).mp hread⟩

end ReplaceRules
