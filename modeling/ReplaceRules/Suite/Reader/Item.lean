import ReplaceRules.Suite.ReadError

/-!
# Taking items

The smallest readers of a test file. A reader takes the items it needs from the front of a list and returns what is left, or
says why it cannot. The lemmas say that a reader leaves fewer items than it was given, which ends the loops that use it.
-/

namespace ReplaceRules

open Yaml (Event Item)

namespace Suite.Reader

/-- Takes one event; `refusal` tells what to say of anything else. -/
def readEvent (wanted : Event) (refusal : Option Item → ReadError) : List Item → Except ReadError (List Item)
  | [] => .error (refusal none)
  | item :: rest => if item = .event wanted then .ok rest else .error (refusal (some item))

/-- Takes a scalar. -/
def readScalar : List Item → Except ReadError (String × List Item)
  | .event (.scalar value) :: rest => .ok (value, rest)
  | items => .error (.scalarExpected items.head?)

/-- Takes as many scalars as there are. -/
def takeScalars : List Item → List String × List Item
  | .event (.scalar value) :: rest =>
    let (values, left) := takeScalars rest
    (value :: values, left)
  | items => ([], items)

/-- Takes a sequence of scalars. -/
def readScalars (items : List Item) : Except ReadError (List String × List Item) := do
  let items ← readEvent .sequenceStart (fun _ => .sequenceStartExpected) items
  let (values, items) := takeScalars items
  let items ← readEvent .sequenceEnd .sequenceEndExpected items
  return (values, items)

/-- Makes something of the value that was read. -/
def mapValue {α β : Type} (f : α → β) : Except ReadError (α × List Item) → Except ReadError (β × List Item)
  | .ok (value, left) => .ok (f value, left)
  | .error e => .error e

/-! ## Helper lemmas: a reader leaves fewer items -/

/-- Two readers after each other succeed if both do. -/
theorem bind_eq_ok_iff {α β : Type} {r : Except ReadError α} {next : α → Except ReadError β} {b : β} :
    (r >>= next) = .ok b ↔ ∃ a, r = .ok a ∧ next a = .ok b := by
  cases r <;> simp [bind, Except.bind]

theorem pure_eq_ok_iff {α : Type} {a b : α} : (pure a : Except ReadError α) = .ok b ↔ a = b := by
  simp [pure, Except.pure]

theorem readEvent_length {wanted : Event} {refusal : Option Item → ReadError} {items left : List Item}
    (h : readEvent wanted refusal items = .ok left) : left.length < items.length := by
  cases items with
  | nil => simp [readEvent] at h
  | cons item rest =>
    simp only [readEvent] at h
    split at h
    · cases h; simp
    · cases h

theorem readScalar_length {items : List Item} {value : String} {left : List Item}
    (h : readScalar items = .ok (value, left)) : left.length < items.length := by
  unfold readScalar at h
  split at h
  · cases h; simp
  · cases h

theorem takeScalars_length (items : List Item) : (takeScalars items).2.length ≤ items.length := by
  fun_induction takeScalars items with
  | case1 value rest values left h ih => simp only [h] at ih; simp only [List.length_cons]; omega
  | case2 items h => exact Nat.le_refl _

theorem readScalars_length {items : List Item} {values : List String} {left : List Item}
    (h : readScalars items = .ok (values, left)) : left.length < items.length := by
  simp only [readScalars, bind_eq_ok_iff, pure_eq_ok_iff] at h
  obtain ⟨inner, h1, last, h2, h3⟩ := h
  cases h3
  have a := readEvent_length h1
  have b := readEvent_length h2
  have c := takeScalars_length inner
  omega

theorem mapValue_ok {α β : Type} {f : α → β} {r : Except ReadError (α × List Item)} {value : β} {left : List Item}
    (h : mapValue f r = .ok (value, left)) : ∃ a, r = .ok (a, left) ∧ f a = value := by
  unfold mapValue at h
  split at h
  · cases h; exact ⟨_, rfl, rfl⟩
  · cases h

end Suite.Reader

end ReplaceRules
