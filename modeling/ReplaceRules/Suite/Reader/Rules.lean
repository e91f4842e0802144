import ReplaceRules.Suite
import ReplaceRules.Suite.Reader.Item

/-!
# Reading a definition of rules

A definition is a mapping of `pairs`, `contexts`, `kind` and `prefix` in any order. The loop over its entries goes on as long as
the next item is a key; whatever else ends it has to be the end of the mapping.
-/

namespace ReplaceRules

open Yaml (Event Item)

namespace Suite.Reader

/-- Takes the name of a kind. -/
def readKind (items : List Item) : Except ReadError (Kind × List Item) := do
  let (name, items) ← readScalar items
  match Kind.ofText? name with
  | some kind => return (kind, items)
  | none => throw (.unknownKind name)

/-- Takes what follows a key in a definition of rules. -/
def readRuleEntry (d : RuleDefinition) (key : String) (items : List Item) : Except ReadError (RuleDefinition × List Item) :=
  if key = "pairs" then mapValue (fun pairs => { d with pairs }) (readScalars items)
  else if key = "contexts" then mapValue (fun contexts => { d with contexts }) (readScalars items)
  else if key = "kind" then mapValue (fun kind => { d with kind := some kind }) (readKind items)
  else if key = "prefix" then mapValue (fun text => { d with initialOutput := some text }) (readScalar items)
  else .error (.unknownKey key)

theorem readKind_length {items : List Item} {kind : Kind} {left : List Item} (h : readKind items = .ok (kind, left)) :
    left.length < items.length := by
  simp only [readKind, bind_eq_ok_iff] at h
  obtain ⟨⟨name, rest⟩, h1, h2⟩ := h
  split at h2
  · cases h2
    exact readScalar_length h1
  · cases h2

theorem readRuleEntry_length {d : RuleDefinition} {key : String} {items : List Item} {d' : RuleDefinition} {left : List Item}
    (h : readRuleEntry d key items = .ok (d', left)) : left.length < items.length := by
  unfold readRuleEntry at h
  split at h
  · obtain ⟨_, h, _⟩ := mapValue_ok h; exact readScalars_length h
  split at h
  · obtain ⟨_, h, _⟩ := mapValue_ok h; exact readScalars_length h
  split at h
  · obtain ⟨_, h, _⟩ := mapValue_ok h; exact readKind_length h
  split at h
  · obtain ⟨_, h, _⟩ := mapValue_ok h; exact readScalar_length h
  · cases h

/-- Takes the entries of a definition of rules; a later entry for a key replaces an earlier one. -/
def readRuleEntries (d : RuleDefinition) : List Item → Except ReadError (RuleDefinition × List Item)
  | .event (.scalar key) :: rest =>
    match _h : readRuleEntry d key rest with
    | .error e => .error e
    | .ok (d, left) => readRuleEntries d left
  | items => .ok (d, items)
termination_by items => items.length
decreasing_by have := readRuleEntry_length _h; simp only [List.length_cons]; omega

/-- Takes a definition of rules. It has to have pairs. -/
def readRules (items : List Item) : Except ReadError (RuleDefinition × List Item) := do
  let items ← readEvent .mappingStart .mappingStartExpected items
  let (d, items) ← readRuleEntries { pairs := [] } items
  let items ← readEvent .mappingEnd (fun _ => .mappingEndExpected) items
  if d.pairs.isEmpty then throw .noPairs else return (d, items)

theorem readRuleEntries_length {d : RuleDefinition} {items : List Item} {d' : RuleDefinition} {left : List Item}
    (h : readRuleEntries d items = .ok (d', left)) : left.length ≤ items.length := by
  fun_induction readRuleEntries d items with
  | case1 => cases h
  | case2 d key rest d1 left1 h1 ih =>
    have a := readRuleEntry_length h1
    have b := ih h
    simp only [List.length_cons]
    omega
  | case3 => cases h; exact Nat.le_refl _

theorem readRules_length {items : List Item} {d : RuleDefinition} {left : List Item} (h : readRules items = .ok (d, left)) :
    left.length < items.length := by
  simp only [readRules, bind_eq_ok_iff] at h
  obtain ⟨inner, h1, ⟨d', rest⟩, h2, last, h3, h4⟩ := h
  split at h4
  · cases h4
  · cases h4
    have a := readEvent_length h1
    have b := readRuleEntries_length h2
    have c : left.length < rest.length := readEvent_length h3
    omega

end Suite.Reader

end ReplaceRules
