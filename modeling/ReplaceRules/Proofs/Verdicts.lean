import ReplaceRules.CommandLine
import ReplaceRules.Proofs.Cascade
import ReplaceRules.Proofs.PairTexts
import ReplaceRules.Proofs.TestFiles

/-!
# Verdicts

The verdict on a test compares two texts: the symbols that the machine wrote, joined, and the symbols of the expected text, joined.
Whatever a machine writes is a token, as are the symbols of a text, and lists of tokens are told apart by their joined texts. So the
verdict is one on symbols (`Test.check_eq_ok_iff`). From there on, nothing is decided any more: suites, files and commands check one
after the other and end at the first thing that is wrong.

A file is taken as whatever items a reader of YAML gets from it, so nothing here depends on how YAML is read.

Main statement: suites whose tests are accepted get one verdict for each test, in order, and each is right; a file gets the verdicts of
its suites, or the error of the first suite and test that cannot be checked; a command prints the four counts, which add up to the
number of tests, and ends with status 1 if there was a failure and with 0 otherwise (`TestFile.check_exact`).
-/

namespace ReplaceRules

/-- The input and the expected text of a test can be read, and nothing is reserved in the input. -/
structure Test.IsAccepted (t : Test) : Prop where
  input : ∃ symbols, tokenize t.input = .ok symbols ∧ ∀ s ∈ symbols, s.isSentinel = false ∧ s ≠ .marker
  expected : ∃ symbols, tokenize t.expected = .ok symbols

/-- Why a test is refused: the input is looked at first. -/
inductive Test.Refuses (t : Test) : TransducerError → Prop where
  | inputTag {e : TagError} (h : tokenize t.input = .error e) : Refuses t (.tag e)
  | inputSymbol {before after : List Symbol} {s : Symbol} (h : tokenize t.input = .ok (before ++ s :: after))
      (hbefore : ∀ u ∈ before, u.isSentinel = false ∧ u ≠ .marker) (hs : s.isSentinel = true ∨ s = .marker) :
      Refuses t (.rule (.reservedSymbol s.text t.input))
  | expectedTag {symbols : List Symbol} {e : TagError} (h : tokenize t.input = .ok symbols)
      (hinput : ∀ s ∈ symbols, s.isSentinel = false ∧ s ≠ .marker) (he : tokenize t.expected = .error e) : Refuses t (.tag e)

/-- What a machine wrote for the input of a test, and what was expected of it. -/
structure Test.Compares (m : Transducer) (t : Test) (written expected : List Symbol) : Prop where
  written : ∃ trace, m.runText t.input = .ok trace ∧ trace.output = written
  expected : tokenize t.expected = .ok expected

/-- What a test shows of a machine: whether it wrote exactly the expected symbols, and whether that was to be expected. -/
inductive Test.Shows (m : Transducer) (t : Test) : Verdict → Prop where
  | success {symbols : List Symbol} (h : t.Compares m symbols symbols) (hx : t.xfail.isExpected = false) : Shows m t .success
  | unexpectedSuccess {symbols : List Symbol} (h : t.Compares m symbols symbols) (hx : t.xfail.isExpected = true) :
      Shows m t (.unexpectedSuccess t.input)
  | failure {written expected : List Symbol} (h : t.Compares m written expected) (hne : written ≠ expected)
      (hx : t.xfail.isExpected = false) : Shows m t (.failure t.input t.expected (join written))
  | expectedFailure {written expected : List Symbol} (h : t.Compares m written expected) (hne : written ≠ expected)
      (hx : t.xfail.isExpected = true) : Shows m t (.expectedFailure t.input t.expected (join written))

/-- What is printed about a verdict: nothing, unless a test failed that should not have, or one succeeded that should have failed. -/
def Verdict.complaint : Verdict → String
  | .failure input expected actual =>
    "FAIL " ++ quoted input ++ ": expected " ++ quoted expected ++ ", got " ++ quoted actual ++ "\n"
  | .unexpectedSuccess input => "XPASS " ++ quoted input ++ "\n"
  | .success | .expectedFailure .. => ""

namespace Suite

/-- The verdicts of a suite: one for each test, in order. -/
def Yields (s : Suite) (verdicts : List Verdict) : Prop :=
  ∃ m, s.rules.compile = .ok m ∧ List.Forall₂ (Test.Shows m) s.tests verdicts

/-- Why a suite cannot be checked: its rules are refused, or else a test is, after others that are accepted. -/
inductive Fails (s : Suite) : CheckError → Prop where
  | compiling {e : TransducerError} (h : s.rules.compile = .error e) : Fails s (.compiling s.rules.pairs e)
  | replacing {m : Transducer} {before after : List Test} {t : Test} {e : TransducerError} (hm : s.rules.compile = .ok m)
      (htests : s.tests = before ++ t :: after) (hbefore : ∀ u ∈ before, u.IsAccepted) (ht : t.Refuses e) :
      Fails s (.replacing t.input e)

/-- The verdicts of suites, one suite after the other. -/
def YieldInTurn (suites : List Suite) (verdicts : List Verdict) : Prop :=
  ∃ each, List.Forall₂ Yields suites each ∧ verdicts = each.flatten

/-- The first suite that cannot be checked, and why. -/
def FirstFails (suites : List Suite) (e : CheckError) : Prop :=
  ∃ before s after, suites = before ++ s :: after ∧ (∀ u ∈ before, ∃ verdicts, u.Yields verdicts) ∧ s.Fails e

end Suite

/-! ## What machines write -/

/-- Tokens are told apart by their joined texts. -/
theorem join_eq_join_iff {symbols symbols' : List Symbol} (h : ∀ s ∈ symbols, s.IsToken) (h' : ∀ s ∈ symbols', s.IsToken) :
    join symbols = join symbols' ↔ symbols = symbols' := by
  refine ⟨fun hjoin => ?_, congrArg join⟩
  have hread := tokenize_join h
  rw [hjoin, tokenize_join h', Except.ok.injEq] at hread
  exact hread.symm

namespace Transducer

/-- Whatever a machine makes of tokens, with any initial output, is tokens. -/
theorem MadeFrom.isToken_replaceSymbols {t : Transducer} {r : RuleSet} (h : MadeFrom r t) (hr : r.Valid) {input : List Symbol}
    (hi : ∀ s ∈ input, s.IsToken) : ∀ s ∈ t.replaceSymbols input, s.IsToken := by
  obtain ⟨hrules, hrealizes⟩ := h.realizes hr
  obtain ⟨source, hsource⟩ := h.exists_tokenize
  rw [hrealizes.replaceSymbols_eq hrules]
  intro s hs
  obtain ⟨_, hm | hm | ⟨p, hp, rfl⟩⟩ := RuleSet.mem_replace hs
  · exact isToken_of_mem_tokenize hsource s hm
  · exact hi s hm
  · exact (hr.pairs_read p hp).isToken.2

end Transducer

/-- The machine of a definition is made of an accepted set of rules. -/
theorem RuleDefinition.exists_madeFrom {d : RuleDefinition} {m : Transducer} (h : d.compile = .ok m) :
    ∃ r : RuleSet, r.Accepted ∧ Transducer.MadeFrom r m := by
  unfold compile at h
  split at h
  · nomatch h
  · next r hr =>
    have haccepted : r.Accepted := by
      unfold ruleSet at hr
      split at hr
      · nomatch hr
      · next r' hr' =>
        split at hr
        · exact .restrict (.ofRules hr') hr
        · cases hr
          exact .ofRules hr'
    split at h
    · nomatch h
    · next t ht =>
      split at h
      · exact ⟨r, haccepted, .withInitialOutput (.compile ht) h⟩
      · cases h
        exact ⟨r, haccepted, .compile ht⟩

/-- What the machine of a definition writes for a text is tokens. -/
theorem RuleDefinition.isToken_output {d : RuleDefinition} {m : Transducer} (h : d.compile = .ok m) {text : String} {trace : Trace}
    (hrun : m.runText text = .ok trace) : ∀ s ∈ trace.output, s.IsToken := by
  obtain ⟨r, hr, hmade⟩ := exists_madeFrom h
  obtain ⟨symbols, hread, _, rfl⟩ := m.runText_eq_ok_iff.mp hrun
  exact hmade.isToken_replaceSymbols hr.valid (isToken_of_mem_tokenize hread)

/-! ## One test -/

namespace Test

variable {d : RuleDefinition} {m : Transducer} {t : Test} {v : Verdict} {e : TransducerError}

/-- No test is both accepted and refused. -/
theorem IsAccepted.not_refuses (h : t.IsAccepted) : ¬t.Refuses e := by
  obtain ⟨⟨symbols, hread, hsymbols⟩, expected, hexpected⟩ := h
  intro he
  cases he with
  | inputTag he =>
    rw [hread] at he
    nomatch he
  | @inputSymbol before after s hs _ hreserved =>
    rw [hread, Except.ok.injEq] at hs
    obtain ⟨hsentinel, hmarker⟩ := hsymbols s (by simp [hs])
    simp [hsentinel, hmarker] at hreserved
  | expectedTag _ _ he =>
    rw [hexpected] at he
    nomatch he

/-- A test is refused, or it is accepted and what was written is compared. -/
theorem check_cases (m : Transducer) (t : Test) :
    (∃ e, t.check m = .error e ∧ t.Refuses e) ∨ t.IsAccepted ∧ ∃ written expected, t.Compares m written expected := by
  cases hread : tokenize t.input with
  | error e => exact .inl ⟨.tag e, by rw [check, Transducer.replace, Transducer.runText, hread], .inputTag hread⟩
  | ok symbols =>
    cases hfind : symbols.find? fun s => s.isSentinel || s = .marker with
    | some s =>
      have hcheck : t.check m = .error (.rule (.reservedSymbol s.text t.input)) := by
        simp only [check, Transducer.replace, Transducer.runText, hread, hfind]
      obtain ⟨hs, before, after, rfl, hbefore⟩ := List.find?_eq_some_iff_append.mp hfind
      exact .inl ⟨_, hcheck, .inputSymbol hread (by simpa using hbefore) (by simpa using hs)⟩
    | none =>
      have hsymbols : ∀ s ∈ symbols, s.isSentinel = false ∧ s ≠ .marker := by simpa using List.find?_eq_none.mp hfind
      have hrun : m.runText t.input = .ok (m.run symbols) := m.runText_eq_ok_iff.mpr ⟨symbols, hread, hsymbols, rfl⟩
      cases hexpected : tokenize t.expected with
      | error e =>
        have hreplace := m.replace_eq_ok_iff_runText.mpr ⟨_, hrun, rfl⟩
        exact .inl ⟨.tag e, by simp only [check, hreplace, hexpected], .expectedTag hread hsymbols hexpected⟩
      | ok expected =>
        exact .inr ⟨⟨⟨symbols, hread, hsymbols⟩, expected, hexpected⟩, _, expected, ⟨_, hrun, rfl⟩, hexpected⟩

/-- Comparing texts comes to comparing symbols. -/
theorem Compares.check_eq (hm : d.compile = .ok m) {written expected : List Symbol} (h : t.Compares m written expected) :
    t.check m = .ok (t.verdict (join written) (decide (written = expected))) := by
  obtain ⟨⟨trace, hrun, rfl⟩, hexpected⟩ := h
  have hreplace : m.replace t.input = .ok (join trace.output) := m.replace_eq_ok_iff_runText.mpr ⟨trace, hrun, rfl⟩
  have hsame := join_eq_join_iff (RuleDefinition.isToken_output hm hrun) (isToken_of_mem_tokenize hexpected)
  simp only [check, hreplace, hexpected, hsame]

/-- The verdict says what the test shows. -/
theorem Compares.shows {written expected : List Symbol} (h : t.Compares m written expected) :
    t.Shows m (t.verdict (join written) (decide (written = expected))) := by
  unfold verdict
  split
  · next heq =>
    obtain rfl : written = expected := of_decide_eq_true heq
    split
    · next hx => exact .unexpectedSuccess h hx
    · next hx => exact .success h (Bool.eq_false_iff.mpr hx)
  · next hne =>
    have hne : written ≠ expected := by simpa using hne
    split
    · next hx => exact .expectedFailure h hne hx
    · next hx => exact .failure h hne (Bool.eq_false_iff.mpr hx)

/-- A test gets the verdict that it shows. -/
theorem check_eq_ok_iff (hm : d.compile = .ok m) : t.check m = .ok v ↔ t.Shows m v := by
  constructor
  · intro h
    rcases check_cases m t with ⟨e, he, _⟩ | ⟨_, written, expected, hcompares⟩
    · rw [h] at he
      nomatch he
    · rw [hcompares.check_eq hm, Except.ok.injEq] at h
      exact h ▸ hcompares.shows
  · intro h
    cases h with
    | success h hx => simp [h.check_eq hm, verdict, hx]
    | unexpectedSuccess h hx => simp [h.check_eq hm, verdict, hx]
    | failure h hne hx => simp [h.check_eq hm, verdict, hx, hne]
    | expectedFailure h hne hx => simp [h.check_eq hm, verdict, hx, hne]

/-- A test is checked if it is accepted. -/
theorem exists_check_iff (hm : d.compile = .ok m) : (∃ v, t.check m = .ok v) ↔ t.IsAccepted := by
  rcases check_cases m t with ⟨e, he, hrefuses⟩ | ⟨haccepted, written, expected, hcompares⟩
  · rw [he]
    constructor
    · rintro ⟨v, hv⟩
      nomatch hv
    · intro h
      exact absurd hrefuses h.not_refuses
  · exact iff_of_true ⟨_, hcompares.check_eq hm⟩ haccepted

/-- A test is refused for the first reason there is. -/
theorem check_eq_error_iff (hm : d.compile = .ok m) : t.check m = .error e ↔ t.Refuses e := by
  constructor
  · intro h
    rcases check_cases m t with ⟨e', he', hrefuses⟩ | ⟨_, written, expected, hcompares⟩
    · rw [h, Except.error.injEq] at he'
      exact he' ▸ hrefuses
    · rw [hcompares.check_eq hm] at h
      nomatch h
  · intro h
    cases h with
    | inputTag h => simp only [check, Transducer.replace, Transducer.runText, h]
    | @inputSymbol before after s h hbefore hs =>
      have hfind : (before ++ s :: after).find? (fun s => s.isSentinel || s = .marker) = some s :=
        List.find?_eq_some_iff_append.mpr ⟨by simpa using hs, before, after, rfl, by simpa using hbefore⟩
      simp only [check, Transducer.replace, Transducer.runText, h, hfind]
    | expectedTag h hinput he =>
      have hreplace := m.replace_eq_ok_iff.mpr ⟨_, h, hinput, rfl⟩
      simp only [check, hreplace, he]

end Test

/-! ## Suites and files -/

theorem mapError_eq_ok_iff {α ε ε' : Type} {f : ε → ε'} {x : Except ε α} {a : α} : x.mapError f = .ok a ↔ x = .ok a := by
  cases x <;> simp [Except.mapError]

theorem mapError_eq_error_iff {α ε ε' : Type} {f : ε → ε'} {x : Except ε α} {e' : ε'} :
    x.mapError f = .error e' ↔ ∃ e, x = .error e ∧ e' = f e := by
  cases x <;> simp [Except.mapError, eq_comm]

namespace Suite

variable {s : Suite} {suites : List Suite} {verdicts : List Verdict} {e : CheckError}

/-- A suite gets a verdict for each of its tests. -/
theorem check_eq_ok_iff : s.check = .ok verdicts ↔ s.Yields verdicts := by
  unfold check Yields
  cases hm : s.rules.compile with
  | error e => simp
  | ok m =>
    simp only [readAll_eq_ok_iff, mapError_eq_ok_iff, Test.check_eq_ok_iff hm, Except.ok.injEq, exists_eq_left']

/-- A suite is checked if its rules can be compiled and its tests are accepted. -/
theorem exists_check_iff :
    (∃ verdicts, s.check = .ok verdicts) ↔ (∃ m, s.rules.compile = .ok m) ∧ ∀ t ∈ s.tests, t.IsAccepted := by
  unfold check
  cases hm : s.rules.compile with
  | error e => simp
  | ok m =>
    simp only [Except.ok.injEq, exists_eq', true_and, ← Test.exists_check_iff hm]
    constructor
    · rintro ⟨verdicts, h⟩ t ht
      obtain ⟨i, hi⟩ := List.mem_iff_getElem?.mp ht
      obtain ⟨v, _, hv⟩ := (getElem?_of_readAll h).2 i t hi
      exact ⟨v, mapError_eq_ok_iff.mp hv⟩
    · intro h
      exact exists_readAll fun t ht => (h t ht).imp fun v hv => mapError_eq_ok_iff.mpr hv

/-- A suite that cannot be checked has the error of its rules or of its first test that is refused. -/
theorem check_eq_error_iff : s.check = .error e ↔ s.Fails e := by
  constructor
  · intro h
    unfold check at h
    split at h
    · next hm =>
      cases h
      exact .compiling hm
    · next m hm =>
      obtain ⟨before, t, after, htests, hbefore, herror⟩ := readAll_eq_error_iff.mp h
      obtain ⟨_, ht, rfl⟩ := mapError_eq_error_iff.mp herror
      refine .replacing hm htests ?_ ((Test.check_eq_error_iff hm).mp ht)
      intro u hu
      exact (Test.exists_check_iff hm).mp ((hbefore u hu).imp fun v hv => mapError_eq_ok_iff.mp hv)
  · intro h
    cases h with
    | compiling hm => simp only [check, hm]
    | replacing hm htests hbefore ht =>
      simp only [check, hm]
      refine readAll_eq_error_iff.mpr ⟨_, _, _, htests, ?_, mapError_eq_error_iff.mpr ⟨_, (Test.check_eq_error_iff hm).mpr ht, rfl⟩⟩
      intro u hu
      exact ((Test.exists_check_iff hm).mpr (hbefore u hu)).imp fun v hv => mapError_eq_ok_iff.mpr hv

/-- A check that comes to an end yields what it ends with. -/
theorem yields_of_toOption (h : s.check.toOption = some verdicts) : s.Yields verdicts := by
  rw [← check_eq_ok_iff]
  cases hc : s.check with
  | error e =>
    rw [hc] at h
    nomatch h
  | ok found =>
    rw [hc] at h
    exact congrArg Except.ok (Option.some.inj h)

/-- One suite gets its own verdicts in turn. -/
theorem Yields.inTurn (h : s.Yields verdicts) : YieldInTurn [s] verdicts := ⟨[verdicts], .cons h .nil, (List.append_nil _).symm⟩

/-- Suites are checked one after the other. -/
theorem checkAll_eq_ok_iff : checkAll suites = .ok verdicts ↔ YieldInTurn suites verdicts := by
  have hyields : List.Forall₂ Yields suites = fun each => readAll check suites = .ok each := by
    funext each
    simp only [readAll_eq_ok_iff, check_eq_ok_iff]
  unfold checkAll YieldInTurn
  rw [hyields]
  cases readAll check suites <;> simp [eq_comm]

/-- They have the error of the first of them that cannot be checked. -/
theorem checkAll_eq_error_iff : checkAll suites = .error e ↔ FirstFails suites e := by
  simp only [FirstFails, ← check_eq_ok_iff, ← check_eq_error_iff, ← readAll_eq_error_iff]
  unfold checkAll
  cases readAll check suites <;> simp

/-- There are as many verdicts as tests. -/
theorem YieldInTurn.length_eq (h : YieldInTurn suites verdicts) : verdicts.length = (suites.flatMap (·.tests)).length := by
  obtain ⟨each, heach, rfl⟩ := h
  induction heach with
  | nil => rfl
  | cons hs _ ih =>
    obtain ⟨m, _, hshows⟩ := hs
    rw [List.flatten_cons, List.flatMap_cons, List.length_append, List.length_append, hshows.length_eq, ih]

/-- Suites in two parts get the verdicts of the one part and then those of the other. -/
theorem yieldInTurn_append_iff {more : List Suite} :
    YieldInTurn (suites ++ more) verdicts ↔
      ∃ front back, verdicts = front ++ back ∧ YieldInTurn suites front ∧ YieldInTurn more back := by
  constructor
  · rintro ⟨each, heach, rfl⟩
    have hfront := List.forall₂_take suites.length heach
    have hback := List.forall₂_drop suites.length heach
    rw [List.take_left] at hfront
    rw [List.drop_left] at hback
    refine ⟨_, _, ?_, ⟨_, hfront, rfl⟩, ⟨_, hback, rfl⟩⟩
    rw [← List.flatten_append, List.take_append_drop]
  · rintro ⟨_, _, rfl, ⟨front, hfront, rfl⟩, ⟨back, hback, rfl⟩⟩
    exact ⟨front ++ back, List.rel_append hfront hback, List.flatten_append.symm⟩

end Suite

namespace TestFile

variable {f : TestFile} {verdicts : List Verdict} {e : CheckError}

/-- The suites in a file are those that the grammar finds in its items. -/
theorem suites_eq_ok_iff {suites : List Suite} : f.suites = .ok suites ↔ ∃ items, f = .opened items ∧ Suite.IsFile items suites := by
  cases f with
  | missing => simp [TestFile.suites]
  | opened items => simp [TestFile.suites, mapError_eq_ok_iff, Suite.ofItems_eq_ok_iff]

/-- The file for some suites holds them. -/
theorem suites_opened_toItems {suites : List Suite} (h : ∀ s ∈ suites, s.IsWritable) :
    (opened (Suite.toItems suites)).suites = .ok suites :=
  mapError_eq_ok_iff.mpr (Suite.ofItems_toItems_eq_ok_iff.mpr h)

/-- A file gets the verdicts of its suites. -/
theorem check_eq_ok_iff : f.check = .ok verdicts ↔ ∃ suites, f.suites = .ok suites ∧ Suite.YieldInTurn suites verdicts := by
  unfold check
  cases f.suites with
  | error e => simp
  | ok suites => simp [Suite.checkAll_eq_ok_iff]

/-- A file has the error of its reading or of its suites. -/
theorem check_eq_error_iff :
    f.check = .error e ↔ f.suites = .error e ∨ ∃ suites, f.suites = .ok suites ∧ Suite.FirstFails suites e := by
  unfold check
  cases f.suites with
  | error e => simp
  | ok suites => simp [Suite.checkAll_eq_error_iff]

/-- Files get the verdicts of one file after the other. -/
theorem checkAll_eq_ok_iff_check {files : List TestFile} :
    checkAll files = .ok verdicts ↔ ∃ each, List.Forall₂ (fun f found => f.check = .ok found) files each ∧ verdicts = each.flatten := by
  simp only [← readAll_eq_ok_iff]
  unfold checkAll
  cases readAll check files <;> simp [eq_comm]

/-- Files are checked if their suites can be read and are checked, and then their verdicts are those of all the suites in turn. -/
theorem checkAll_eq_ok_iff {files : List TestFile} :
    checkAll files = .ok verdicts ↔
      ∃ suites, List.Forall₂ (fun f found => f.suites = .ok found) files suites ∧ Suite.YieldInTurn suites.flatten verdicts := by
  rw [checkAll_eq_ok_iff_check]
  constructor
  · rintro ⟨each, heach, rfl⟩
    induction heach with
    | nil => exact ⟨[], .nil, [], .nil, rfl⟩
    | cons hf _ ih =>
      obtain ⟨found, hfound, hyield⟩ := check_eq_ok_iff.mp hf
      obtain ⟨suites, hsuites, hyields⟩ := ih
      exact ⟨found :: suites, .cons hfound hsuites, Suite.yieldInTurn_append_iff.mpr ⟨_, _, rfl, hyield, hyields⟩⟩
  · rintro ⟨suites, hsuites, hyield⟩
    induction hsuites generalizing verdicts with
    | nil =>
      obtain ⟨each, heach, rfl⟩ := hyield
      cases heach
      exact ⟨[], .nil, rfl⟩
    | cons hfound _ ih =>
      obtain ⟨front, back, rfl, hfront, hback⟩ := Suite.yieldInTurn_append_iff.mp hyield
      obtain ⟨each, heach, rfl⟩ := ih hback
      exact ⟨front :: each, .cons (check_eq_ok_iff.mpr ⟨_, hfound, hfront⟩) heach, rfl⟩

/-- Files have the error of the first of them that cannot be checked. -/
theorem checkAll_eq_error_iff {files : List TestFile} :
    checkAll files = .error e ↔
      ∃ before f after, files = before ++ f :: after ∧ (∀ u ∈ before, ∃ verdicts, u.check = .ok verdicts) ∧ f.check = .error e := by
  rw [← readAll_eq_error_iff]
  unfold checkAll
  cases readAll check files <;> simp

end TestFile

/-! ## Counts -/

/-- Each verdict is counted once. -/
theorem Verdict.countP_add_countP (verdicts : List Verdict) :
    verdicts.countP (· matches .success) + verdicts.countP (· matches .failure ..) +
      verdicts.countP (· matches .expectedFailure ..) + verdicts.countP (· matches .unexpectedSuccess _) = verdicts.length := by
  induction verdicts with
  | nil => rfl
  | cons v rest ih => cases v <;> simp <;> omega

namespace Tally

/-- The counts are those of verdicts. -/
structure Counts (t : Tally) (verdicts : List Verdict) : Prop where
  successes : t.successes = verdicts.countP (· matches .success)
  failures : t.failures = verdicts.countP (· matches .failure ..)
  expectedFailures : t.expectedFailures = verdicts.countP (· matches .expectedFailure ..)
  unexpectedSuccesses : t.unexpectedSuccesses = verdicts.countP (· matches .unexpectedSuccess _)

variable {t : Tally} {verdicts : List Verdict}

/-- One more verdict is counted. -/
theorem Counts.add (h : t.Counts verdicts) (v : Verdict) : (t.add v).Counts (verdicts ++ [v]) := by
  obtain ⟨hs, hf, he, hu⟩ := h
  constructor <;> cases v <;> simp [Tally.add, List.countP_append, *]

/-- Counting verdicts one by one counts them. -/
theorem counts_ofVerdicts (verdicts : List Verdict) : (ofVerdicts verdicts).Counts verdicts := by
  induction verdicts using List.reverseRecOn with
  | nil => exact ⟨rfl, rfl, rfl, rfl⟩
  | append_singleton verdicts v ih =>
    rw [ofVerdicts, List.foldl_append]
    exact ih.add v

/-- No failure is counted if there is none. -/
theorem Counts.failures_eq_zero_iff (h : t.Counts verdicts) :
    t.failures = 0 ↔ ∀ input expected actual, .failure input expected actual ∉ verdicts := by
  rw [h.failures, List.countP_eq_zero]
  constructor
  · intro hall input expected actual hv
    exact hall _ hv rfl
  · intro hnone v hv hm
    cases v with
    | failure input expected actual => exact hnone input expected actual hv
    | success | expectedFailure | unexpectedSuccess => nomatch hm

end Tally

/-! ## What is reported -/

/-- The lines about verdicts are the complaints about them. -/
theorem join_lines_eq_join_complaints (verdicts : List Verdict) :
    String.join ((verdicts.filterMap (·.line?)).map (· ++ "\n")) = String.join (verdicts.map (·.complaint)) := by
  induction verdicts with
  | nil => rfl
  | cons v rest ih =>
    rw [List.map_cons, String.join_cons, ← ih]
    cases v <;> simp [Verdict.line?, Verdict.complaint, String.join_cons]

namespace Outcome

/-- What is printed about verdicts: the complaints, and the four counts. -/
theorem ofVerdicts_output (verdicts : List Verdict) :
    (ofVerdicts verdicts).output =
      String.join (verdicts.map (·.complaint)) ++
        "Pass: " ++ toString (verdicts.countP (· matches .success)) ++ "\n" ++
        "Fail: " ++ toString (verdicts.countP (· matches .failure ..)) ++ "\n" ++
        "Expected failures: " ++ toString (verdicts.countP (· matches .expectedFailure ..)) ++ "\n" ++
        "Unexpected successes: " ++ toString (verdicts.countP (· matches .unexpectedSuccess _)) ++ "\n" := by
  obtain ⟨hs, hf, he, hu⟩ := Tally.counts_ofVerdicts verdicts
  rw [← hs, ← hf, ← he, ← hu, ← join_lines_eq_join_complaints]
  simp only [ofVerdicts, lines, Tally.lines, List.map_append, List.map_cons, List.map_nil, String.join_append, String.join_cons,
    String.join_nil, String.append_assoc, String.append_empty]
  rfl

/-- Nothing else is printed. -/
theorem ofVerdicts_errors (verdicts : List Verdict) : (ofVerdicts verdicts).errors = "" := rfl

/-- The status is 0 as long as there is no failure. -/
theorem ofVerdicts_status_eq_zero_iff {verdicts : List Verdict} :
    (ofVerdicts verdicts).status = 0 ↔ ∀ input expected actual, .failure input expected actual ∉ verdicts := by
  rw [← (Tally.counts_ofVerdicts verdicts).failures_eq_zero_iff]
  simp [ofVerdicts, lines]

/-- The status is 1 if there is a failure. -/
theorem ofVerdicts_status_eq_one_iff {verdicts : List Verdict} :
    (ofVerdicts verdicts).status = 1 ↔ ∃ input expected actual, .failure input expected actual ∈ verdicts := by
  have hnot : (ofVerdicts verdicts).status = 1 ↔ ¬(ofVerdicts verdicts).status = 0 := by simp [ofVerdicts, lines]
  rw [hnot, ofVerdicts_status_eq_zero_iff]
  push Not
  rfl

end Outcome

/-- A command that checks files without an error has the outcome of their verdicts. -/
theorem Command.run_check {file : String → TestFile} {names : List String} {verdicts : List Verdict}
    (h : TestFile.checkAll (names.map file) = .ok verdicts) : run file (.check names) = .ofVerdicts verdicts := by
  simp only [run, h]

/-- Where files cannot be checked, a command prints nothing but the error. -/
theorem Command.run_check_failed {file : String → TestFile} {names : List String} {e : CheckError}
    (h : TestFile.checkAll (names.map file) = .error e) : run file (.check names) = .failed e.message := by
  simp only [run, h]

/-- Tests are judged by symbols, and none is dropped. A suite is checked exactly if its rules can be compiled and its tests are
accepted; it gets one verdict for each test, in order, which says whether the machine wrote the symbols of the expected text and
whether a failure was expected. Otherwise it has the error of its rules or of its first test that is refused. A file has the verdicts
of the suites that the grammar finds in it, one suite after the other, or no verdict but the error of the first suite that cannot be
checked, unless its suites cannot be read at all. Files have the verdicts of all their suites in turn, or no verdict but the error of
the first file that cannot be checked; then a command prints this error only. Otherwise it prints a line for each test that failed or
succeeded against what was expected, and the number of verdicts of each sort; these numbers add up to the number of tests in the files.
Its status is 1 exactly if a test failed, and 0 otherwise. All this holds for any items that a reader of YAML may get from the files. -/
theorem TestFile.check_exact :
    (∀ s : Suite,
      ((∃ verdicts, s.check = .ok verdicts) ↔ (∃ m, s.rules.compile = .ok m) ∧ ∀ t ∈ s.tests, t.IsAccepted) ∧
      (∀ verdicts, s.check = .ok verdicts ↔ s.Yields verdicts) ∧
      ∀ e, s.check = .error e ↔ s.Fails e) ∧
    (∀ f : TestFile,
      (∀ suites, f.suites = .ok suites ↔ ∃ items, f = .opened items ∧ Suite.IsFile items suites) ∧
      (∀ verdicts, f.check = .ok verdicts ↔ ∃ suites, f.suites = .ok suites ∧ Suite.YieldInTurn suites verdicts) ∧
      ∀ e, f.check = .error e ↔ f.suites = .error e ∨ ∃ suites, f.suites = .ok suites ∧ Suite.FirstFails suites e) ∧
    (∀ files : List TestFile,
      (∀ verdicts, checkAll files = .ok verdicts ↔
        ∃ suites, List.Forall₂ (fun f found => f.suites = .ok found) files suites ∧ Suite.YieldInTurn suites.flatten verdicts) ∧
      ∀ e, checkAll files = .error e ↔
        ∃ before f after, files = before ++ f :: after ∧ (∀ u ∈ before, ∃ verdicts, u.check = .ok verdicts) ∧ f.check = .error e) ∧
    ∀ (file : String → TestFile) (names : List String),
      (∀ e, checkAll (names.map file) = .error e →
        (Command.run file (.check names)).output = "" ∧
        (Command.run file (.check names)).errors = "Error: " ++ e.message ++ "\n" ∧
        (Command.run file (.check names)).status = 1) ∧
      ∀ suites verdicts, List.Forall₂ (fun f found => f.suites = .ok found) (names.map file) suites →
        Suite.YieldInTurn suites.flatten verdicts →
        verdicts.countP (· matches .success) + verdicts.countP (· matches .failure ..) +
            verdicts.countP (· matches .expectedFailure ..) + verdicts.countP (· matches .unexpectedSuccess _) =
          (suites.flatten.flatMap (·.tests)).length ∧
        (Command.run file (.check names)).output =
          String.join (verdicts.map (·.complaint)) ++
            "Pass: " ++ toString (verdicts.countP (· matches .success)) ++ "\n" ++
            "Fail: " ++ toString (verdicts.countP (· matches .failure ..)) ++ "\n" ++
            "Expected failures: " ++ toString (verdicts.countP (· matches .expectedFailure ..)) ++ "\n" ++
            "Unexpected successes: " ++ toString (verdicts.countP (· matches .unexpectedSuccess _)) ++ "\n" ∧
        (Command.run file (.check names)).errors = "" ∧
        ((Command.run file (.check names)).status = 1 ↔ ∃ input expected actual, .failure input expected actual ∈ verdicts) ∧
        ((Command.run file (.check names)).status = 0 ↔ ∀ input expected actual, .failure input expected actual ∉ verdicts) := by
  refine ⟨?_, ?_, ?_, ?_⟩
  · intro s
    exact ⟨Suite.exists_check_iff, fun _ => Suite.check_eq_ok_iff, fun _ => Suite.check_eq_error_iff⟩
  · intro f
    exact ⟨fun _ => suites_eq_ok_iff, fun _ => check_eq_ok_iff, fun _ => check_eq_error_iff⟩
  · intro files
    exact ⟨fun _ => checkAll_eq_ok_iff, fun _ => checkAll_eq_error_iff⟩
  · intro file names
    constructor
    · intro e he
      rw [Command.run_check_failed he]
      exact ⟨rfl, rfl, rfl⟩
    · intro suites verdicts hsuites hyield
      rw [Command.run_check (checkAll_eq_ok_iff.mpr ⟨suites, hsuites, hyield⟩)]
      exact ⟨(Verdict.countP_add_countP verdicts).trans hyield.length_eq, Outcome.ofVerdicts_output verdicts,
        Outcome.ofVerdicts_errors verdicts, Outcome.ofVerdicts_status_eq_one_iff, Outcome.ofVerdicts_status_eq_zero_iff⟩

/-- A rule that writes a tag with blanks inside, and three tests of it. -/
def Suite.tagged : Suite where
  rules := { pairs := ["B->[c  d]"] }
  tests := [{ input := "a B", expected := " a\t[c  d]" }, { input := "B", expected := "[c d]" },
    { input := "a", expected := "a", xfail := .flag true }]

/-- A rule and two tests of it, of which the second is expected to fail. -/
def Suite.plain : Suite where
  rules := { pairs := ["a->b"] }
  tests := [{ input := "a", expected := " b" }, { input := "a", expected := "a", xfail := .reason "replaced" }]

/-- Blanks between symbols do not matter, blanks inside a tag do. A failure counts unless it was expected. -/
theorem TestFile.check_exact_tagged :
    let run (s : Suite) := Command.run (fun _ => .opened (Suite.toItems [s])) (.check ["tests.yaml"])
    (opened (Suite.toItems [.tagged])).check = .ok [.success, .failure "B" "[c d]" "[c  d]", .unexpectedSuccess "a"] ∧
      (run .tagged).output = "FAIL \"B\": expected \"[c d]\", got \"[c  d]\"\nXPASS \"a\"\n" ++
        "Pass: 1\nFail: 1\nExpected failures: 0\nUnexpected successes: 1\n" ∧
      (run .tagged).status = 1 ∧
      (opened (Suite.toItems [.plain])).check = .ok [.success, .expectedFailure "a" "a" "b"] ∧
      (run .plain).output = "Pass: 1\nFail: 0\nExpected failures: 1\nUnexpected successes: 0\n" ∧
      (run .plain).status = 0 := by
  have htagged : Suite.tagged.Yields [.success, .failure "B" "[c d]" "[c  d]", .unexpectedSuccess "a"] :=
    Suite.yields_of_toOption (by decide +kernel)
  have hplain : Suite.plain.Yields [.success, .expectedFailure "a" "a" "b"] := Suite.yields_of_toOption (by decide +kernel)
  have hread : (opened (Suite.toItems [.tagged])).suites = .ok [.tagged] := suites_opened_toItems (by decide)
  have hread' : (opened (Suite.toItems [.plain])).suites = .ok [.plain] := suites_opened_toItems (by decide)
  obtain ⟨_, hfile, _, hcommand⟩ := check_exact
  obtain ⟨-, houtput, -, hone, -⟩ := (hcommand (fun _ => .opened (Suite.toItems [.tagged])) ["tests.yaml"]).2 [[.tagged]] _
    (.cons hread .nil) htagged.inTurn
  obtain ⟨-, houtput', -, -, hzero⟩ := (hcommand (fun _ => .opened (Suite.toItems [.plain])) ["tests.yaml"]).2 [[.plain]] _
    (.cons hread' .nil) hplain.inTurn
  have hcheck := ((hfile _).2.1 _).mpr ⟨_, hread, htagged.inTurn⟩
  have hcheck' := ((hfile _).2.1 _).mpr ⟨_, hread', hplain.inTurn⟩
  exact ⟨hcheck, houtput.trans (by decide +kernel), hone.mpr ⟨"B", "[c d]", "[c  d]", by decide⟩,
    hcheck', houtput'.trans (by decide +kernel), hzero.mpr (by simp)⟩

end ReplaceRules
