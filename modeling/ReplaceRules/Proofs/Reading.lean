import ReplaceRules.Proofs.Scanning

/-!
# Reading a text at once and item by item

A reader that is asked for one symbol after the other starts anew with each of them: it leaves out blanks, and reads on with a
bracket state of its own. Nothing is lost by that, since a symbol ends outside tags.

Main statement: both readers give what a scan of the whole text gives (`TokenReader.item_eq`), and that is the maximal non-empty
stretches between blanks outside tags, up to the first fault (`tokenize_exact`).
-/

namespace ReplaceRules

namespace Tokens

/-! ## One symbol -/

section OneSymbol

variable {opened : Option Nat} {token token' rest rest' : List Char} {position position' : Nat}

/-- Blanks before a symbol change nothing but the place. -/
theorem scan_skipBlanks (position : Nat) (rest : List Char) :
    scan none [] (skipBlanks position rest).1 (skipBlanks position rest).2 = scan none [] position rest := by
  induction rest generalizing position with
  | nil => rfl
  | cons c rest ih =>
    cases hb : isBlank c with
    | true =>
      rw [scan_blank hb]
      simp [skipBlanks, hb, complete, ih]
    | false => simp [skipBlanks, hb]

/-- What is left after the blanks begins with none. -/
theorem isBlank_of_skipBlanks {c : Char} (h : skipBlanks position rest = (position', c :: rest')) : isBlank c = false := by
  induction rest generalizing position with
  | nil => nomatch h
  | cons d rest ih =>
    cases hb : isBlank d with
    | true =>
      simp only [skipBlanks, hb, if_true] at h
      exact ih h
    | false =>
      simp only [skipBlanks, hb, Bool.false_eq_true, if_false, Prod.mk.injEq, List.cons.injEq] at h
      rw [← h.2.1, hb]

/-- A scan finds the symbol that is read on, and what it finds in the rest of the text. -/
theorem scan_eq_takeToken (opened : Option Nat) (token : List Char) (position : Nat) (rest : List Char) :
    scan opened token position rest =
      match takeToken opened token position rest with
      | .ok (token, position, rest) => (complete token ++ (scan none [] position rest).1, (scan none [] position rest).2)
      | .error fault => ([], some fault) := by
  induction rest generalizing opened token position with
  | nil => cases opened <;> simp [scan, takeToken, complete]
  | cons c rest ih =>
    cases opened with
    | none =>
      cases hb : isBlank c with
      | true => simp [takeToken, hb, scan_blank hb, complete]
      | false =>
        rcases Decidable.em (c = ']') with rfl | hc
        · simp [takeToken, hb, scan_close]
        · rw [scan_outside hb hc, ih]
          rcases Decidable.em (c = '[') with rfl | ho
          · simp [takeToken, hb]
          · simp [takeToken, hb, hc, ho]
    | some place =>
      rcases Decidable.em (c = '[') with rfl | ho
      · simp [takeToken, scan_nested]
      · rw [scan_inside ho, ih]
        by_cases hc : c = ']' <;> simp [takeToken, hc, ho]

/-- A symbol is read on with what stands before the rest, and the rest begins with a blank. -/
theorem takeToken_eq_ok (h : takeToken opened token position rest = .ok (token', position', rest')) :
    ∃ read, rest = read ++ rest' ∧ token' = read.reverse ++ token ∧ ∀ c later, rest' = c :: later → isBlank c = true := by
  induction rest generalizing opened token position with
  | nil =>
    cases opened with
    | none =>
      simp only [takeToken, Except.ok.injEq, Prod.mk.injEq] at h
      obtain ⟨rfl, _, rfl⟩ := h
      exact ⟨[], rfl, rfl, fun c later h => nomatch h⟩
    | some place => nomatch h
  | cons c rest ih =>
    have hread : ∀ {opened position}, takeToken opened (c :: token) position rest = .ok (token', position', rest') →
        ∃ read, c :: rest = read ++ rest' ∧ token' = read.reverse ++ token ∧ ∀ c later, rest' = c :: later → isBlank c = true := by
      intro opened position h
      obtain ⟨read, rfl, rfl, hblank⟩ := ih h
      exact ⟨c :: read, rfl, by simp, hblank⟩
    unfold takeToken at h
    split at h
    · next hb =>
      simp only [Except.ok.injEq, Prod.mk.injEq] at h
      obtain ⟨rfl, _, rfl⟩ := h
      refine ⟨[], rfl, rfl, ?_⟩
      rintro d later hd
      rw [← (List.cons.inj hd).1]
      exact (Bool.and_eq_true _ _ ▸ hb).1
    · split at h
      · split at h
        · nomatch h
        · exact hread h
      · split at h
        · split at h
          · nomatch h
          · exact hread h
        · exact hread h

end OneSymbol

end Tokens

open Tokens

/-! ## Item by item -/

namespace TokenReader

/-- The items that are left to a reader. -/
def items (r : TokenReader) : List (Except TagError Symbol) :=
  match scan none [] r.position r.rest with
  | (symbols, none) => symbols.map .ok
  | (symbols, some (fault, position)) => symbols.map .ok ++ [.error ⟨fault, r.source, position⟩]

/-- A symbol is the first item before those of the rest. -/
theorem items_of_scan {source : String} {position position' : Nat} {rest rest' : List Char} {s : Symbol}
    (h : scan none [] position rest = (s :: (scan none [] position' rest').1, (scan none [] position' rest').2)) :
    (TokenReader.mk source position rest).items = .ok s :: (TokenReader.mk source position' rest').items := by
  simp only [items, h]
  rcases scan none [] position' rest' with ⟨symbols, _ | ⟨fault, place⟩⟩
  · simp
  · simp

/-- One step of a reader: the first item that is left, and the others after it. -/
theorem next_eq (r : TokenReader) : r.next.1 = r.items.head? ∧ r.next.2.items = r.items.tail := by
  obtain ⟨source, position, rest⟩ := r
  have hscan := scan_skipBlanks position rest
  rcases hskip : skipBlanks position rest with ⟨position', _ | ⟨c, rest'⟩⟩
  · rw [hskip] at hscan
    simp [next, hskip, items, ← hscan, scan, complete]
  · rw [hskip, scan_eq_takeToken] at hscan
    rcases htake : takeToken none [] position' (c :: rest') with ⟨fault, place⟩ | ⟨token, position'', rest''⟩
    · simp only [htake] at hscan
      simp [next, hskip, htake, items, ← hscan, scan, complete]
    · -- The first character is read, since it is not blank.
      have hne : token ≠ [] := by
        obtain ⟨read, hread, rfl, hblank⟩ := takeToken_eq_ok htake
        rintro hnil
        obtain rfl : read = [] := by simpa using hnil
        have hb := hblank c rest' hread.symm
        rw [isBlank_of_skipBlanks hskip] at hb
        exact Bool.false_ne_true hb
      simp only [htake, complete_of_ne_nil hne, List.singleton_append] at hscan
      rw [items_of_scan hscan.symm]
      simp [next, hskip, htake]

/-- The calls of a reader return the items one after the other, and nothing after that. -/
theorem item_eq (r : TokenReader) (n : Nat) : r.item n = r.items[n]? := by
  induction n generalizing r with
  | zero => rw [item, r.next_eq.1, List.head?_eq_getElem?]
  | succ n ih => rw [item, ih, r.next_eq.2, List.getElem?_tail]

end TokenReader

/-! ## The readers -/

theorem tokenize_eq_error_iff {source : String} {e : TagError} :
    tokenize source = .error e ↔ e.source = source ∧ ∃ symbols, scan none [] 0 source.toList = (symbols, some (e.fault, e.position)) := by
  unfold tokenize
  split
  · next hs => simp [hs]
  · next hs =>
    rw [hs, Except.error.injEq]
    constructor
    · rintro rfl
      exact ⟨rfl, _, rfl⟩
    · rintro ⟨rfl, _, he⟩
      simp only [Prod.mk.injEq, Option.some.injEq] at he
      obtain ⟨_, rfl, rfl⟩ := he
      rfl

/-- A text is refused exactly if a bracket does not fit the state in which it is met, or a tag stays open, and the error reports
the first of these. Otherwise its symbols are the maximal non-empty stretches between blanks outside tags, in order and letter by
letter. Read one by one, the symbols that are complete before the error come first, then the error, and then nothing any more. -/
theorem tokenize_exact (source : String) :
    (∀ e, tokenize source = .error e ↔ e.source = source ∧ ∃ place, FirstFault source.toList place e.fault e.position) ∧
    (∀ symbols, tokenize source = .ok symbols ↔
      Faultless source.toList ∧ InOrder source.toList (IsStretch source.toList) symbols) ∧
    (∀ symbols, tokenize source = .ok symbols → tokens source = symbols.map .ok) ∧
    (∀ place fault position, FirstFault source.toList place fault position → ∃ symbols,
      InOrder source.toList (fun first last => IsStretch source.toList first last ∧ last < place) symbols ∧
        tokens source = symbols.map .ok ++ [.error ⟨fault, source, position⟩]) ∧
    ∀ n, (TokenReader.ofText source).item n = (tokens source)[n]? := by
  refine ⟨?_, ?_, ?_, ?_, (TokenReader.ofText source).item_eq⟩
  · intro e
    rw [tokenize_eq_error_iff, exists_scan_iff]
  · intro symbols
    rw [tokenize_eq_ok_iff, scan_eq_iff, reads_none_iff]
  · intro symbols h
    rw [tokens, tokenize_eq_ok_iff.mp h]
  · intro place fault position hfirst
    obtain ⟨symbols, hscan, horder⟩ := hfirst.exists_scan
    exact ⟨symbols, horder, by rw [tokens, hscan]⟩

/-- A symbol with a tag glued to it and blanks inside the tag, then a bracket that closes nothing, whose place is counted in bytes. -/
theorem tokenize_exact_glued : ∃ place, FirstFault "é[a  b]c d]e".toList place .unexpectedClose 11 ∧
    InOrder "é[a  b]c d]e".toList (fun first last => IsStretch "é[a  b]c d]e".toList first last ∧ last < place) [⟨"é[a  b]c"⟩] ∧
    (TokenReader.ofText "é[a  b]c d]e").item 0 = some (.ok ⟨"é[a  b]c"⟩) ∧
    (TokenReader.ofText "é[a  b]c d]e").item 1 = some (.error ⟨.unexpectedClose, "é[a  b]c d]e", 11⟩) ∧
    ∀ n, (TokenReader.ofText "é[a  b]c d]e").item (n + 2) = none := by
  obtain ⟨herror, _, _, hbroken, hitems⟩ := tokenize_exact "é[a  b]c d]e"
  have hread : tokenize "é[a  b]c d]e" = .error ⟨.unexpectedClose, "é[a  b]c d]e", 11⟩ := by rfl
  have htokens : tokens "é[a  b]c d]e" = [.ok ⟨"é[a  b]c"⟩, .error ⟨.unexpectedClose, "é[a  b]c d]e", 11⟩] := by rfl
  obtain ⟨_, place, hfirst⟩ := (herror _).mp hread
  obtain ⟨symbols, horder, hsymbols⟩ := hbroken place _ _ hfirst
  have hone : symbols = [⟨"é[a  b]c"⟩] := by
    rw [htokens] at hsymbols
    rcases symbols with _ | ⟨s, _ | ⟨t, rest⟩⟩ <;> simp_all
  refine ⟨place, hfirst, hone ▸ horder, ?_, ?_, ?_⟩
  · rw [hitems, htokens]
    rfl
  · rw [hitems, htokens]
    rfl
  · intro n
    rw [hitems, htokens]
    rfl

end ReplaceRules
