import ReplaceRules.Suite
import ReplaceRules.Suite.Reader.Item

/-!
# Reading tests

A test is a sequence of two or three scalars, which may end in a mapping with `xfail`. Tests follow each other as long as the
next item begins a sequence.
-/

namespace ReplaceRules

open Yaml (Event Item)

namespace Suite.Reader

/-- Takes the value of `xfail`: a word for yes or no, or a reason. -/
def readXfail : List Item → Except ReadError (Xfail × List Item)
  | .event (.scalar value) :: rest => .ok (.ofText value, rest)
  | _ => .error .invalidXfail

/-- Takes what follows a key in the mapping of a test. -/
def readTestEntry (key : String) (items : List Item) : Except ReadError (Xfail × List Item) :=
  if key = "xfail" then readXfail items else .error (.unknownKey key)

theorem readXfail_length {items : List Item} {x : Xfail} {left : List Item} (h : readXfail items = .ok (x, left)) :
    left.length < items.length := by
  unfold readXfail at h
  split at h
  · cases h; simp
  · cases h

theorem readTestEntry_length {key : String} {items : List Item} {x : Xfail} {left : List Item}
    (h : readTestEntry key items = .ok (x, left)) : left.length < items.length := by
  unfold readTestEntry at h
  split at h
  · exact readXfail_length h
  · cases h

/-- Takes the entries of the mapping of a test. -/
def readTestEntries (x : Xfail) : List Item → Except ReadError (Xfail × List Item)
  | .event (.scalar key) :: rest =>
    match _h : readTestEntry key rest with
    | .error e => .error e
    | .ok (x, left) => readTestEntries x left
  | items => .ok (x, items)
termination_by items => items.length
decreasing_by have := readTestEntry_length _h; simp only [List.length_cons]; omega

/-- Takes the mapping at the end of a test, if there is one. -/
def readTestMapping : List Item → Except ReadError (Xfail × List Item)
  | .event .mappingStart :: rest => do
    let (x, items) ← readTestEntries (.flag false) rest
    let items ← readEvent .mappingEnd (fun _ => .mappingEndExpected) items
    return (x, items)
  | items => .ok (.flag false, items)

/-- Takes the texts of a test: an input and what is expected, with a description before them if there are three. -/
def readTestTexts (items : List Item) : Except ReadError ((Option String × String × String) × List Item) := do
  let (first, items) ← readScalar items
  let (second, items) ← readScalar items
  match items with
  | .event (.scalar third) :: items => return ((some first, second, third), items)
  | items => return ((none, first, second), items)

/-- Takes a test. -/
def readTest (items : List Item) : Except ReadError (Test × List Item) := do
  let items ← readEvent .sequenceStart (fun _ => .sequenceStartExpected) items
  let ((description, input, expected), items) ← readTestTexts items
  let (xfail, items) ← readTestMapping items
  let items ← readEvent .sequenceEnd .sequenceEndExpected items
  return ({ description, input, expected, xfail }, items)

theorem readTestEntries_length {x : Xfail} {items : List Item} {x' : Xfail} {left : List Item}
    (h : readTestEntries x items = .ok (x', left)) : left.length ≤ items.length := by
  fun_induction readTestEntries x items with
  | case1 => cases h
  | case2 x key rest x1 left1 h1 ih =>
    have a := readTestEntry_length h1
    have b := ih h
    simp only [List.length_cons]
    omega
  | case3 => cases h; exact Nat.le_refl _

theorem readTestMapping_length {items : List Item} {x : Xfail} {left : List Item}
    (h : readTestMapping items = .ok (x, left)) : left.length ≤ items.length := by
  unfold readTestMapping at h
  split at h
  · simp only [bind_eq_ok_iff, pure_eq_ok_iff] at h
    obtain ⟨⟨x', inner⟩, h1, last, h2, h3⟩ := h
    cases h3
    have a := readTestEntries_length h1
    have b : left.length < inner.length := readEvent_length h2
    simp only [List.length_cons]
    omega
  · cases h
    exact Nat.le_refl _

theorem readTestTexts_length {items : List Item} {texts : Option String × String × String} {left : List Item}
    (h : readTestTexts items = .ok (texts, left)) : left.length < items.length := by
  simp only [readTestTexts, bind_eq_ok_iff] at h
  obtain ⟨⟨first, rest⟩, h1, ⟨second, last⟩, h2, h3⟩ := h
  have a := readScalar_length h1
  have b : last.length < rest.length := readScalar_length h2
  dsimp only at h3
  split at h3 <;> cases h3
  · simp only [List.length_cons] at b
    omega
  · omega

theorem readTest_length {items : List Item} {t : Test} {left : List Item} (h : readTest items = .ok (t, left)) :
    left.length < items.length := by
  simp only [readTest, bind_eq_ok_iff, pure_eq_ok_iff] at h
  obtain ⟨inner, h1, ⟨texts, rest⟩, h2, ⟨x, more⟩, h3, last, h4, h5⟩ := h
  cases h5
  have a := readEvent_length h1
  have b := readTestTexts_length h2
  have c : more.length ≤ rest.length := readTestMapping_length h3
  have d : left.length < more.length := readEvent_length h4
  omega

/-- Takes tests as long as another sequence begins. -/
def readTestList : List Item → Except ReadError (List Test × List Item)
  | .event .sequenceStart :: rest =>
    match _h : readTest (.event .sequenceStart :: rest) with
    | .error e => .error e
    | .ok (t, left) => mapValue (t :: ·) (readTestList left)
  | items => .ok ([], items)
termination_by items => items.length
decreasing_by exact readTest_length _h

/-- Takes a sequence of tests. -/
def readTests (items : List Item) : Except ReadError (List Test × List Item) := do
  let items ← readEvent .sequenceStart (fun _ => .sequenceStartExpected) items
  let (tests, items) ← readTestList items
  let items ← readEvent .sequenceEnd .sequenceEndExpected items
  return (tests, items)

theorem readTestList_length {items : List Item} {tests : List Test} {left : List Item}
    (h : readTestList items = .ok (tests, left)) : left.length ≤ items.length := by
  fun_induction readTestList items generalizing tests with
  | case1 => cases h
  | case2 rest t left1 h1 ih =>
    obtain ⟨later, h2, _⟩ := mapValue_ok h
    have a := readTest_length h1
    have b := ih h2
    omega
  | case3 => cases h; exact Nat.le_refl _

theorem readTests_length {items : List Item} {tests : List Test} {left : List Item}
    (h : readTests items = .ok (tests, left)) : left.length < items.length := by
  simp only [readTests, bind_eq_ok_iff, pure_eq_ok_iff] at h
  obtain ⟨inner, h1, ⟨tests', rest⟩, h2, last, h3, h4⟩ := h
  cases h4
  have a := readEvent_length h1
  have b := readTestList_length h2
  have c : left.length < rest.length := readEvent_length h3
  omega

end Suite.Reader

end ReplaceRules
