import Mathlib.Data.Nat.Find
import ReplaceRules.Proofs.Tokens
import ReplaceRules.Rule.Context

/-!
# The text of a context

A text is read as a context if its symbols are a left side, one marker and a right side, and every symbol of the sides may stand
where it stands: no reserved symbol may, apart from the boundary at the outer end of a side. Places are counted through both sides,
from left to right, so the symbol that is reported is the one at the least place where something is misplaced.

Main statement: these are exactly the texts that are read, all others are refused for the first reason there is, and a context that
was read is read back from its own text (`Context.parse_exact`).
-/

namespace ReplaceRules

namespace Context

/-- A place is the outer end of its side: the first one on the left, or the last one on the right. -/
def IsOuter (c : Context) (place : Nat) : Prop :=
  place = 0 ∧ c.left ≠ [] ∨ place + 1 = (c.left ++ c.right).length ∧ c.right ≠ []

instance (c : Context) (place : Nat) : Decidable (c.IsOuter place) := inferInstanceAs (Decidable (_ ∨ _))

/-- A reserved symbol stands at a place where it may not. -/
structure Misplaced (c : Context) (place : Nat) (s : Symbol) : Prop where
  symbol : (c.left ++ c.right)[place]? = some s
  isReserved : s.isReserved = true
  not_outer : ¬(s = .boundary ∧ c.IsOuter place)

/-- The first symbol of a context that stands where it may not. -/
def FirstMisplaced (c : Context) (place : Nat) (s : Symbol) : Prop :=
  c.Misplaced place s ∧ ∀ place' s', c.Misplaced place' s' → place ≤ place'

/-- The contexts that may be written: no marker, wildcard or empty symbol stands in a side, and the boundary only at its outer end. -/
structure IsProper (c : Context) : Prop where
  ne_reserved : ∀ s ∈ c.left ++ c.right, s ≠ .marker ∧ s ≠ .wildcard ∧ s ≠ .empty
  boundary_notMem_left : Symbol.boundary ∉ c.left.tail
  boundary_notMem_right : Symbol.boundary ∉ c.right.dropLast

/-- Why a text is refused as a context. -/
inductive Refuses (source : String) : RuleError → Prop where
  | tag {e : TagError} (h : tokenize source = .error e) : Refuses source (.tag e)
  | markerCount {symbols : List Symbol} (h : tokenize source = .ok symbols) (hcount : symbols.count .marker ≠ 1) :
      Refuses source (.markerCount source (symbols.count .marker))
  | misplacedBoundary {c : Context} {place : Nat} (h : tokenize source = .ok (c.left ++ .marker :: c.right))
      (hmarker : .marker ∉ c.left ++ c.right) (hfirst : c.FirstMisplaced place .boundary) :
      Refuses source (.misplacedBoundary source)
  | reservedSymbol {c : Context} {place : Nat} {s : Symbol} (h : tokenize source = .ok (c.left ++ .marker :: c.right))
      (hmarker : .marker ∉ c.left ++ c.right) (hfirst : c.FirstMisplaced place s) (hs : s ≠ .boundary) :
      Refuses source (.reservedSymbol s.text source)

/-! ## The places of a context -/

/-- The places of a left side: the first one is its outer end. -/
def leftPlaces : List Symbol → List (Bool × Symbol)
  | [] => []
  | first :: inner => (true, first) :: inner.map (false, ·)

/-- The places of a right side: the last one is its outer end. -/
def rightPlaces (right : List Symbol) : List (Bool × Symbol) :=
  right.dropLast.map (false, ·) ++ right.getLast?.toList.map (true, ·)

/-- The places of a context are those of its left side and those of its right side. -/
theorem places_eq (c : Context) : c.places = leftPlaces c.left ++ rightPlaces c.right := by
  obtain ⟨left, right⟩ := c
  cases left <;> simp [places, leftPlaces, rightPlaces]

theorem length_leftPlaces (left : List Symbol) : (leftPlaces left).length = left.length := by
  cases left <;> simp [leftPlaces]

/-- On the left the first place is the outer one. -/
theorem getElem?_leftPlaces (left : List Symbol) (place : Nat) :
    (leftPlaces left)[place]? = left[place]?.map fun s => (decide (place = 0), s) := by
  cases left with
  | nil => rfl
  | cons first inner => cases place <;> simp [leftPlaces]

/-- On the right the last place is the outer one. -/
theorem getElem?_rightPlaces (right : List Symbol) (place : Nat) :
    (rightPlaces right)[place]? = right[place]?.map fun s => (decide (place + 1 = right.length), s) := by
  unfold rightPlaces
  rcases right.eq_nil_or_concat with rfl | ⟨init, last, rfl⟩
  · rfl
  · rcases Nat.lt_trichotomy place init.length with hlt | rfl | hgt
    · simp [List.getElem?_append_left, hlt, Nat.ne_of_lt hlt]
    · simp
    · have hlength : (init.concat last).length ≤ place := by
        rw [List.length_concat]
        exact hgt
      rw [List.getElem?_eq_none (by simpa using hlength), List.getElem?_eq_none hlength]
      rfl

/-- On the left the first place is the outer end. -/
theorem isOuter_iff_of_lt {c : Context} {place : Nat} (h : place < c.left.length) : c.IsOuter place ↔ place = 0 := by
  constructor
  · rintro (⟨rfl, _⟩ | ⟨hlast, hright⟩)
    · rfl
    · have := List.length_pos_iff.mpr hright
      rw [List.length_append] at hlast
      omega
  · rintro rfl
    exact .inl ⟨rfl, List.ne_nil_of_length_pos h⟩

/-- On the right the last place is the outer end. -/
theorem isOuter_iff_of_le {c : Context} {place : Nat} (hle : c.left.length ≤ place)
    (hlt : place - c.left.length < c.right.length) : c.IsOuter place ↔ place - c.left.length + 1 = c.right.length := by
  constructor
  · rintro (⟨rfl, hleft⟩ | ⟨hlast, _⟩)
    · exact absurd (List.eq_nil_of_length_eq_zero (Nat.le_zero.mp hle)) hleft
    · rw [List.length_append] at hlast
      omega
  · intro hlast
    exact .inr ⟨by rw [List.length_append]; omega, List.ne_nil_of_length_pos (Nat.zero_lt_of_lt hlt)⟩

/-- The places of a context are those of its symbols, from left to right. -/
theorem getElem?_places (c : Context) (place : Nat) :
    c.places[place]? = (c.left ++ c.right)[place]?.map fun s => (decide (c.IsOuter place), s) := by
  have hlength := length_leftPlaces c.left
  rw [places_eq]
  rcases Nat.lt_or_ge place c.left.length with hlt | hle
  · rw [List.getElem?_append_left (hlength ▸ hlt), getElem?_leftPlaces, List.getElem?_append_left hlt]
    simp only [isOuter_iff_of_lt hlt]
  · rw [List.getElem?_append_right (hlength ▸ hle), hlength, getElem?_rightPlaces, List.getElem?_append_right hle]
    cases hs : c.right[place - c.left.length]? with
    | none => rfl
    | some s =>
      have hlt := (List.getElem?_eq_some_iff.mp hs).1
      simp only [Option.map_some, isOuter_iff_of_le hle hlt]

/-! ## What is misplaced -/

section Misplaced

variable {c : Context} {source : String}

/-- How a misplaced symbol is reported. -/
def refusal (s : Symbol) (source : String) : RuleError :=
  if s = .boundary then .misplacedBoundary source else .reservedSymbol s.text source

/-- A symbol at its place is refused, or is none of the misplaced ones. -/
def refusalAt? (source : String) (place : Bool × Symbol) : Option RuleError :=
  if place.2 = .boundary then (if place.1 then none else some (.misplacedBoundary source))
  else if place.2.isReserved then some (.reservedSymbol place.2.text source)
  else none

theorem fault?_eq (c : Context) (source : String) : c.fault? source = c.places.findSome? (refusalAt? source) := rfl

/-- A place is refused if the symbol there is misplaced. -/
theorem refusalAt?_eq {place : Nat} {s : Symbol} (h : (c.left ++ c.right)[place]? = some s) :
    (c.Misplaced place s → refusalAt? source (decide (c.IsOuter place), s) = some (refusal s source)) ∧
      (¬c.Misplaced place s → refusalAt? source (decide (c.IsOuter place), s) = none) := by
  constructor
  · rintro ⟨_, hr, ho⟩
    by_cases hb : s = .boundary
    · have hinner : ¬c.IsOuter place := fun ho' => ho ⟨hb, ho'⟩
      simp [refusalAt?, refusal, hb, hinner]
    · simp [refusalAt?, refusal, hb, hr]
  · intro hm
    by_cases hb : s = .boundary
    · have houter : c.IsOuter place := by
        by_contra ho
        exact hm ⟨h, hb ▸ by decide, fun ho' => ho ho'.2⟩
      simp [refusalAt?, hb, houter]
    · have hr : s.isReserved = false := by
        by_contra hr
        exact hm ⟨h, by simpa using hr, fun ho' => hb ho'.1⟩
      simp [refusalAt?, hb, hr]

/-- A context without a fault has no misplaced symbol. -/
theorem fault?_eq_none_iff : c.fault? source = none ↔ ∀ place s, ¬c.Misplaced place s := by
  rw [fault?_eq, List.findSome?_eq_none_iff]
  constructor
  · intro h place s hm
    have hp : c.places[place]? = some (decide (c.IsOuter place), s) := by rw [getElem?_places, hm.symbol, Option.map_some]
    have hnone := h _ (List.mem_of_getElem? hp)
    rw [(refusalAt?_eq hm.symbol).1 hm] at hnone
    nomatch hnone
  · intro h p hp
    obtain ⟨place, hplace⟩ := List.mem_iff_getElem?.mp hp
    rw [getElem?_places] at hplace
    obtain ⟨s, hs, rfl⟩ := Option.map_eq_some_iff.mp hplace
    exact (refusalAt?_eq hs).2 (h place s)

theorem Misplaced.unique {place : Nat} {s s' : Symbol} (h : c.Misplaced place s) (h' : c.Misplaced place s') : s = s' :=
  Option.some.inj (h.symbol.symm.trans h'.symbol)

/-- The fault of a context is its first misplaced symbol. -/
theorem fault?_eq_some_iff {e : RuleError} :
    c.fault? source = some e ↔ ∃ place s, c.FirstMisplaced place s ∧ e = refusal s source := by
  have hfirst : ∀ {e}, c.fault? source = some e → ∃ place s, c.FirstMisplaced place s ∧ e = refusal s source := by
    intro e h
    rw [fault?_eq, List.findSome?_eq_some_iff] at h
    obtain ⟨before, p, after, hplaces, hp, hbefore⟩ := h
    have hat : c.places[before.length]? = some p := by simp [hplaces]
    rw [getElem?_places] at hat
    obtain ⟨s, hs, rfl⟩ := Option.map_eq_some_iff.mp hat
    have hm : c.Misplaced before.length s := by
      by_contra hm
      rw [(refusalAt?_eq hs).2 hm] at hp
      nomatch hp
    rw [(refusalAt?_eq hs).1 hm, Option.some.injEq] at hp
    have hleast : ∀ place' s', c.Misplaced place' s' → before.length ≤ place' := by
      intro place' s' hm'
      refine Nat.le_of_not_lt fun hlt => ?_
      have hat' : c.places[place']? = some (decide (c.IsOuter place'), s') := by rw [getElem?_places, hm'.symbol, Option.map_some]
      rw [hplaces, List.getElem?_append_left hlt] at hat'
      have hnone := hbefore _ (List.mem_of_getElem? hat')
      rw [(refusalAt?_eq hm'.symbol).1 hm'] at hnone
      nomatch hnone
    exact ⟨before.length, s, ⟨hm, hleast⟩, hp.symm⟩
  refine ⟨hfirst, ?_⟩
  rintro ⟨place, s, hs, rfl⟩
  cases hf : c.fault? source with
  | none => exact absurd hs.1 (fault?_eq_none_iff.mp hf place s)
  | some e =>
    obtain ⟨place', s', hs', rfl⟩ := hfirst hf
    obtain rfl : place = place' := Nat.le_antisymm (hs.2 _ _ hs'.1) (hs'.2 _ _ hs.1)
    rw [hs.1.unique hs'.1]

/-- The boundary is misplaced if it stands further in than at the outer end of a side. -/
theorem exists_misplaced_boundary_iff :
    (∃ place, c.Misplaced place .boundary) ↔ .boundary ∈ c.left.tail ∨ .boundary ∈ c.right.dropLast := by
  constructor
  · rintro ⟨place, hs, _, hinner⟩
    have hinner : ¬c.IsOuter place := fun h => hinner ⟨rfl, h⟩
    rcases Nat.lt_or_ge place c.left.length with hlt | hle
    · rw [isOuter_iff_of_lt hlt] at hinner
      rw [List.getElem?_append_left hlt, ← Nat.succ_pred hinner, ← List.getElem?_tail] at hs
      exact .inl (List.mem_of_getElem? hs)
    · rw [List.getElem?_append_right hle] at hs
      have hlt := (List.getElem?_eq_some_iff.mp hs).1
      rw [isOuter_iff_of_le hle hlt] at hinner
      have hdrop : c.right.dropLast[place - c.left.length]? = some .boundary := by
        rw [List.getElem?_dropLast, if_pos (by omega), hs]
      exact .inr (List.mem_of_getElem? hdrop)
  · rintro (hb | hb)
    · obtain ⟨place, hplace⟩ := List.mem_iff_getElem?.mp hb
      rw [List.getElem?_tail] at hplace
      have hlt := (List.getElem?_eq_some_iff.mp hplace).1
      refine ⟨place + 1, (List.getElem?_append_left hlt).trans hplace, by decide, ?_⟩
      rw [isOuter_iff_of_lt hlt]
      exact fun h => nomatch h.2
    · obtain ⟨place, hplace⟩ := List.mem_iff_getElem?.mp hb
      have hlt := (List.getElem?_eq_some_iff.mp hplace).1
      rw [List.length_dropLast] at hlt
      rw [List.getElem?_dropLast, if_pos hlt] at hplace
      have hsub : c.left.length + place - c.left.length = place := Nat.add_sub_cancel_left ..
      refine ⟨c.left.length + place, ?_, by decide, ?_⟩
      · rw [List.getElem?_append_right (Nat.le_add_right _ _), hsub, hplace]
      · rw [isOuter_iff_of_le (Nat.le_add_right _ _) (by omega)]
        omega

/-- A context is proper if it has no marker in it and nothing is misplaced. -/
theorem isProper_iff : c.IsProper ↔ .marker ∉ c.left ++ c.right ∧ ∀ place s, ¬c.Misplaced place s := by
  constructor
  · rintro ⟨hreserved, hleft, hright⟩
    refine ⟨fun hm => (hreserved _ hm).1 rfl, fun place s hm => ?_⟩
    obtain ⟨hmarker, hwildcard, hempty⟩ := hreserved s (List.mem_of_getElem? hm.symbol)
    obtain rfl : s = .boundary := by simpa [Symbol.isReserved, hmarker, hwildcard, hempty] using hm.isReserved
    exact (exists_misplaced_boundary_iff.mp ⟨place, hm⟩).elim hleft hright
  · rintro ⟨hmarker, hnone⟩
    have hreserved : ∀ s ∈ c.left ++ c.right, s.isReserved = true → s = .boundary := by
      intro s hs hr
      obtain ⟨place, hplace⟩ := List.mem_iff_getElem?.mp hs
      by_contra hb
      exact hnone place s ⟨hplace, hr, fun h => hb h.1⟩
    refine ⟨?_, ?_, ?_⟩
    · intro s hs
      refine ⟨fun he => hmarker (he ▸ hs), ?_, ?_⟩
      · rintro rfl
        exact absurd (hreserved _ hs (by decide)) (by decide)
      · rintro rfl
        exact absurd (hreserved _ hs (by decide)) (by decide)
    · intro hb
      obtain ⟨place, hm⟩ := exists_misplaced_boundary_iff.mpr (.inl hb)
      exact hnone place _ hm
    · intro hb
      obtain ⟨place, hm⟩ := exists_misplaced_boundary_iff.mpr (.inr hb)
      exact hnone place _ hm

end Misplaced

/-! ## Reading a context -/

section Parse

variable {c : Context} {source : String}

/-- Symbols with one marker are the sides of a context around it. -/
theorem count_marker_eq_one_iff {symbols : List Symbol} :
    symbols.count .marker = 1 ↔ ∃ c : Context, symbols = c.left ++ .marker :: c.right ∧ .marker ∉ c.left ++ c.right := by
  constructor
  · intro h
    obtain ⟨left, right, rfl, hleft⟩ := List.eq_append_cons_of_mem (List.count_pos_iff.mp (by omega : 0 < symbols.count .marker))
    refine ⟨⟨left, right⟩, rfl, ?_⟩
    rw [List.count_append, List.count_cons_self, List.count_eq_zero_of_not_mem hleft] at h
    have hright : Symbol.marker ∉ right := List.count_eq_zero.mp (by omega)
    simp [hleft, hright]
  · rintro ⟨c, rfl, hmarker⟩
    rw [List.mem_append, not_or] at hmarker
    simp [List.count_eq_zero_of_not_mem hmarker.1, List.count_eq_zero_of_not_mem hmarker.2]

/-- Around its only marker a text is read as a context, or refused for the fault of that context. -/
theorem parse_of_sides (h : tokenize source = .ok (c.left ++ .marker :: c.right)) (hmarker : .marker ∉ c.left ++ c.right) :
    (∀ e, c.fault? source = some e → parse source = .error e) ∧ (c.fault? source = none → parse source = .ok c) := by
  have hcount := count_marker_eq_one_iff.mpr ⟨c, rfl, hmarker⟩
  have hleft : ∀ s ∈ c.left, decide (s ≠ Symbol.marker) = true := by
    intro s hs
    rw [decide_eq_true_iff]
    rintro rfl
    exact hmarker (List.mem_append_left _ hs)
  have htake : (c.left ++ .marker :: c.right).takeWhile (· ≠ Symbol.marker) = c.left := by
    rw [List.takeWhile_append_of_pos hleft]
    simp
  have hdrop : ((c.left ++ .marker :: c.right).dropWhile (· ≠ Symbol.marker)).tail = c.right := by
    rw [List.dropWhile_append_of_pos hleft]
    simp
  constructor
  · intro e he
    simp only [parse, h, hcount, if_true, htake, hdrop, he]
  · intro hnone
    simp only [parse, h, hcount, if_true, htake, hdrop, hnone]

/-- The ways in which a text is read as a context, or refused. -/
theorem parse_cases (source : String) :
    (∃ e, parse source = .error e ∧ Refuses source e) ∨
      ∃ c, parse source = .ok c ∧ tokenize source = .ok (c.left ++ .marker :: c.right) ∧ c.IsProper := by
  cases h : tokenize source with
  | error e => exact .inl ⟨.tag e, by simp only [parse, h], .tag h⟩
  | ok symbols =>
    by_cases hcount : symbols.count .marker = 1
    · obtain ⟨c, rfl, hmarker⟩ := count_marker_eq_one_iff.mp hcount
      obtain ⟨herror, hok⟩ := parse_of_sides h hmarker
      cases hf : c.fault? source with
      | none => exact .inr ⟨c, hok hf, rfl, isProper_iff.mpr ⟨hmarker, fault?_eq_none_iff.mp hf⟩⟩
      | some e =>
        refine .inl ⟨e, herror e hf, ?_⟩
        obtain ⟨place, s, hfirst, rfl⟩ := fault?_eq_some_iff.mp hf
        unfold refusal
        split
        · next hs => exact .misplacedBoundary h hmarker (hs ▸ hfirst)
        · next hs => exact .reservedSymbol h hmarker hfirst hs
    · exact .inl ⟨_, by simp only [parse, h, if_neg hcount], .markerCount h hcount⟩

/-- A text is read as a context if its symbols are the sides of a proper one around a marker. -/
theorem parse_eq_ok_iff : parse source = .ok c ↔ tokenize source = .ok (c.left ++ .marker :: c.right) ∧ c.IsProper := by
  constructor
  · intro h
    rcases parse_cases source with ⟨e, he, _⟩ | ⟨c', hc', hread⟩
    · rw [h] at he
      nomatch he
    · rw [h, Except.ok.injEq] at hc'
      exact hc' ▸ hread
  · rintro ⟨h, hproper⟩
    obtain ⟨hmarker, hnone⟩ := isProper_iff.mp hproper
    exact (parse_of_sides h hmarker).2 (fault?_eq_none_iff.mpr hnone)

/-- A text is refused as a context for the first reason there is. -/
theorem parse_eq_error_iff {e : RuleError} : parse source = .error e ↔ Refuses source e := by
  constructor
  · intro h
    rcases parse_cases source with ⟨e', he', hrefuses⟩ | ⟨c, hc, _⟩
    · rw [h, Except.error.injEq] at he'
      exact he' ▸ hrefuses
    · rw [h] at hc
      nomatch hc
  · intro h
    cases h with
    | tag h => simp only [parse, h]
    | markerCount h hcount => simp only [parse, h, if_neg hcount]
    | misplacedBoundary h hmarker hfirst =>
      exact (parse_of_sides h hmarker).1 _ (fault?_eq_some_iff.mpr ⟨_, _, hfirst, (if_pos rfl).symm⟩)
    | reservedSymbol h hmarker hfirst hs =>
      exact (parse_of_sides h hmarker).1 _ (fault?_eq_some_iff.mpr ⟨_, _, hfirst, (if_neg hs).symm⟩)

end Parse

/-- A text is read as a context exactly if its symbols are a left side, one marker and a right side, no marker, wildcard or empty
symbol stands in the sides, and the boundary only as the very first symbol on the left or the very last on the right. A context
that was read is read back from its text. All other texts are refused: for a bracket, then for the number of markers, and then for
the first symbol from left to right that stands where it may not. -/
theorem parse_exact (source : String) :
    (∀ c, parse source = .ok c ↔ tokenize source = .ok (c.left ++ .marker :: c.right) ∧ c.IsProper) ∧
    (∀ c, parse source = .ok c → parse c.text = .ok c) ∧
    ∀ e, parse source = .error e ↔ Refuses source e := by
  refine ⟨fun c => parse_eq_ok_iff, ?_, fun e => parse_eq_error_iff⟩
  intro c h
  obtain ⟨hread, hproper⟩ := parse_eq_ok_iff.mp h
  exact parse_eq_ok_iff.mpr ⟨tokenize_join (isToken_of_mem_tokenize hread), hproper⟩

/-- The boundary at both outer ends, around a tag with blanks inside. Where it stands further in it is what is reported, although a
wildcard comes after it. -/
theorem parse_exact_boundaries :
    parse " $  [a  b] _\tc $" = .ok ⟨[.boundary, ⟨"[a  b]"⟩], [⟨"c"⟩, .boundary]⟩ ∧
      parse "$ [a  b] _ c $" = .ok ⟨[.boundary, ⟨"[a  b]"⟩], [⟨"c"⟩, .boundary]⟩ ∧
      parse "a $ _ ?" = .error (.misplacedBoundary "a $ _ ?") := by
  have hread : parse " $  [a  b] _\tc $" = .ok ⟨[.boundary, ⟨"[a  b]"⟩], [⟨"c"⟩, .boundary]⟩ := by
    refine ((parse_exact _).1 _).mpr ⟨by rfl, ?_, ?_, ?_⟩
    · decide
    · decide
    · decide
  refine ⟨hread, (parse_exact _).2.1 _ hread, ((parse_exact _).2.2 _).mpr ?_⟩
  have hmisplaced : Misplaced ⟨[⟨"a"⟩, .boundary], [.wildcard]⟩ 1 .boundary := ⟨by rfl, by rfl, by decide⟩
  have hfirst : FirstMisplaced ⟨[⟨"a"⟩, .boundary], [.wildcard]⟩ 1 .boundary := by
    refine ⟨hmisplaced, ?_⟩
    rintro (_ | place) s ⟨hs, hr, _⟩
    · obtain rfl : (⟨"a"⟩ : Symbol) = s := Option.some.inj hs
      exact absurd hr (by decide)
    · exact Nat.le_add_left 1 place
  exact .misplacedBoundary (by rfl) (by decide) hfirst

end Context

end ReplaceRules
