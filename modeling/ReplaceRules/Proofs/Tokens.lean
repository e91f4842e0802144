import ReplaceRules.Symbol.Tokens

/-!
# Tokens

A token is a symbol that is read back from its own text. Which texts these are is seen character by character: no blank stands
outside a tag, and every bracket has its partner (`isToken_iff`).

Main statements: whatever is read from a text is a token (`isToken_of_mem_tokenize`), and tokens that are joined are read back,
the same ones in the same order (`tokenize_join`). So joining and reading are inverse to each other on the lists of tokens, and on
no other lists (`tokenize_join_exact`).
-/

namespace ReplaceRules

/-- A symbol that is read back from its own text. -/
def Symbol.IsToken (s : Symbol) : Prop := tokenize s.text = .ok [s]

namespace Tokens

/-- Whether characters complete a token: outside a tag there is no blank, and every bracket has its partner. The first argument
tells whether a tag is open before them. -/
def completes : Bool → List Char → Bool
  | inTag, [] => !inTag
  | false, c :: rest => !isBlank c && c ≠ ']' && completes (c = '[') rest
  | true, c :: rest => c ≠ '[' && completes (c ≠ ']') rest

/-- The text of a token. -/
def IsWhole (text : List Char) : Prop := text ≠ [] ∧ completes false text = true

/-- The characters of a token that have been read, the last one first, with whether they leave a tag open: what completes them
completes the token. -/
def Begun (token : List Char) (inTag : Bool) : Prop :=
  ∀ more, completes false (token.reverse ++ more) = completes inTag more

theorem begun_nil : Begun [] false := fun _ => rfl

/-- Outside a tag a token goes on with any character but a blank and a closing bracket. -/
theorem Begun.outside {token : List Char} (h : Begun token false) {c : Char} (hb : isBlank c = false) (hc : c ≠ ']') :
    Begun (c :: token) (c = '[') := by
  intro more
  rw [List.reverse_cons, List.append_assoc, List.singleton_append, h]
  simp [completes, hb, hc]

/-- Inside a tag it goes on with any character but an opening bracket. -/
theorem Begun.inside {token : List Char} (h : Begun token true) {c : Char} (hc : c ≠ '[') : Begun (c :: token) (c ≠ ']') := by
  intro more
  rw [List.reverse_cons, List.append_assoc, List.singleton_append, h]
  simp [completes, hc]

/-! ## The steps of a scan -/

section Scan

variable {token : List Char} {position place : Nat} {c : Char} {rest : List Char}

/-- A blank outside a tag completes the token before it. -/
theorem scan_blank (hb : isBlank c = true) : scan none token position (c :: rest) =
    (complete token ++ (scan none [] (position + c.utf8Size) rest).1, (scan none [] (position + c.utf8Size) rest).2) := by
  simp only [scan, hb, if_true]

/-- A closing bracket outside a tag is a fault. -/
theorem scan_close : scan none token position (']' :: rest) = ([], some (.unexpectedClose, position)) := by
  have hb : isBlank ']' = false := by decide
  simp [scan, hb]

/-- Any other character outside a tag goes on with the token; an opening bracket opens a tag. -/
theorem scan_outside (hb : isBlank c = false) (hc : c ≠ ']') : scan none token position (c :: rest) =
    scan (if c = '[' then some position else none) (c :: token) (position + c.utf8Size) rest := by
  rw [scan, hb]
  by_cases ho : c = '['
  · rw [if_neg Bool.false_ne_true, if_pos ho, if_pos ho]
  · rw [if_neg Bool.false_ne_true, if_neg ho, if_neg hc, if_neg ho]

/-- An opening bracket inside a tag is a fault. -/
theorem scan_nested : scan (some place) token position ('[' :: rest) = ([], some (.nested, position)) := by
  simp [scan]

/-- Any other character inside a tag goes on with the token; a closing bracket closes the tag. -/
theorem scan_inside (hc : c ≠ '[') : scan (some place) token position (c :: rest) =
    scan (if c = ']' then none else some place) (c :: token) (position + c.utf8Size) rest := by
  rw [scan, if_neg hc]
  by_cases ho : c = ']'
  · rw [if_pos ho, if_pos ho]
  · rw [if_neg ho, if_neg ho]

end Scan

/-- Whether a tag is open after a character outside a tag. -/
theorem isSome_opened (c : Char) (position : Nat) : (if c = '[' then some position else none).isSome = decide (c = '[') := by
  by_cases h : c = '[' <;> simp [h]

/-- Whether a tag is open after a character inside a tag. -/
theorem isSome_closed (c : Char) (place : Nat) : (if c = ']' then none else some place).isSome = decide (c ≠ ']') := by
  by_cases h : c = ']' <;> simp [h]

/-! ## What is read -/

/-- A token that has begun is completed by turning it round. -/
theorem complete_of_ne_nil {token : List Char} (h : token ≠ []) : complete token = [⟨String.ofList token.reverse⟩] := by
  cases token with
  | nil => exact absurd rfl h
  | cons c rest => rfl

/-- What is completed outside a tag is a token. -/
theorem isWhole_of_mem_complete {token : List Char} (h : Begun token false) {s : Symbol} (hs : s ∈ complete token) :
    IsWhole s.text.toList := by
  by_cases hne : token = []
  · rw [hne] at hs
    exact absurd hs List.not_mem_nil
  · rw [complete_of_ne_nil hne, List.mem_singleton] at hs
    have hw := h []
    rw [List.append_nil] at hw
    rw [hs, String.toList_ofList]
    exact ⟨by simpa using hne, hw⟩

/-- Whatever a scan returns is a token. -/
theorem isWhole_of_mem_scan {opened : Option Nat} {token : List Char} {position : Nat} {text : List Char}
    (h : Begun token opened.isSome) {s : Symbol} (hs : s ∈ (scan opened token position text).1) : IsWhole s.text.toList := by
  induction text generalizing opened token position with
  | nil =>
    cases opened with
    | none => exact isWhole_of_mem_complete h hs
    | some place => exact absurd hs List.not_mem_nil
  | cons c rest ih =>
    cases opened with
    | none =>
      cases hb : isBlank c with
      | true =>
        rw [scan_blank hb] at hs
        rcases List.mem_append.mp hs with hs | hs
        · exact isWhole_of_mem_complete h hs
        · exact ih begun_nil hs
      | false =>
        by_cases hc : c = ']'
        · rw [hc, scan_close] at hs
          exact absurd hs List.not_mem_nil
        · rw [scan_outside hb hc] at hs
          refine ih ?_ hs
          rw [isSome_opened]
          exact h.outside hb hc
    | some place =>
      by_cases hc : c = '['
      · rw [hc, scan_nested] at hs
        exact absurd hs List.not_mem_nil
      · rw [scan_inside hc] at hs
        refine ih ?_ hs
        rw [isSome_closed]
        exact h.inside hc

/-! ## What is read back -/

/-- A scan reads the characters that complete a token without an end or a fault. -/
theorem exists_scan_append (opened : Option Nat) (token : List Char) (position : Nat) {text : List Char}
    (h : completes opened.isSome text = true) (rest : List Char) :
    ∃ next, scan opened token position (text ++ rest) = scan none (text.reverse ++ token) next rest := by
  induction text generalizing opened token position with
  | nil =>
    cases opened with
    | none => exact ⟨position, rfl⟩
    | some place => nomatch h
  | cons c text ih =>
    rw [List.reverse_cons, List.append_assoc, List.singleton_append, List.cons_append]
    cases opened with
    | none =>
      simp only [Option.isSome_none, completes, Bool.and_eq_true, Bool.not_eq_true', decide_eq_true_eq] at h
      obtain ⟨⟨hb, hc⟩, hrest⟩ := h
      rw [scan_outside hb hc]
      exact ih _ _ _ (by rw [isSome_opened]; exact hrest)
    | some place =>
      simp only [Option.isSome_some, completes, Bool.and_eq_true, decide_eq_true_eq] at h
      obtain ⟨hc, hrest⟩ := h
      rw [scan_inside hc]
      exact ih _ _ _ (by rw [isSome_closed]; exact hrest)

/-- The text of a token is completed to that token. -/
theorem complete_reverse_text {s : Symbol} (h : s.text.toList ≠ []) : complete (s.text.toList.reverse ++ []) = [s] := by
  rw [List.append_nil, complete_of_ne_nil (by simpa using h), List.reverse_reverse, String.ofList_toList]

theorem toList_join_singleton (s : Symbol) : (join [s]).toList = s.text.toList := by
  simp [join]

/-- Joined symbols have a blank between every two. -/
theorem toList_join_cons (s t : Symbol) (rest : List Symbol) :
    (join (s :: t :: rest)).toList = s.text.toList ++ ' ' :: (join (t :: rest)).toList := by
  simp [join]

/-- A scan returns tokens that were joined, and finds no fault. -/
theorem scan_join {symbols : List Symbol} (h : ∀ s ∈ symbols, IsWhole s.text.toList) (position : Nat) :
    scan none [] position (join symbols).toList = (symbols, none) := by
  induction symbols generalizing position with
  | nil => rfl
  | cons s rest ih =>
    obtain ⟨hne, hs⟩ := h s List.mem_cons_self
    cases rest with
    | nil =>
      obtain ⟨next, hscan⟩ := exists_scan_append none [] position hs []
      rw [List.append_nil] at hscan
      rw [toList_join_singleton, hscan, scan, complete_reverse_text hne]
    | cons t rest =>
      obtain ⟨next, hscan⟩ := exists_scan_append none [] position hs
        (' ' :: (join (t :: rest)).toList)
      have hlater := ih (fun u hu => h u (List.mem_cons_of_mem s hu))
      rw [toList_join_cons, hscan, scan_blank (by decide), hlater, complete_reverse_text hne, List.singleton_append]

end Tokens

/-! ## Reading and joining -/

theorem tokenize_eq_ok_iff {source : String} {symbols : List Symbol} :
    tokenize source = .ok symbols ↔ Tokens.scan none [] 0 source.toList = (symbols, none) := by
  unfold tokenize
  split
  · next hs => simp [hs]
  · next hs => simp [hs]

/-- A token by its characters. -/
theorem isToken_iff {s : Symbol} : s.IsToken ↔ Tokens.IsWhole s.text.toList := by
  constructor
  · intro h
    have hscan := tokenize_eq_ok_iff.mp h
    exact Tokens.isWhole_of_mem_scan Tokens.begun_nil (by rw [hscan]; exact List.mem_singleton_self s)
  · intro h
    have hall : ∀ t ∈ [s], Tokens.IsWhole t.text.toList := fun t ht => List.mem_singleton.mp ht ▸ h
    have hscan := Tokens.scan_join hall 0
    rw [Tokens.toList_join_singleton] at hscan
    exact tokenize_eq_ok_iff.mpr hscan

/-- Whatever is read from a text is a token. -/
theorem isToken_of_mem_tokenize {source : String} {symbols : List Symbol} (h : tokenize source = .ok symbols) :
    ∀ s ∈ symbols, s.IsToken := by
  intro s hs
  have hscan := tokenize_eq_ok_iff.mp h
  exact isToken_iff.mpr (Tokens.isWhole_of_mem_scan Tokens.begun_nil (by rw [hscan]; exact hs))

/-- Tokens that are joined are read back. -/
theorem tokenize_join {symbols : List Symbol} (h : ∀ s ∈ symbols, s.IsToken) : tokenize (join symbols) = .ok symbols :=
  tokenize_eq_ok_iff.mpr (Tokens.scan_join (fun s hs => isToken_iff.mp (h s hs)) 0)

/-- Reading gives back exactly the lists of tokens that are joined. All that is read is such a list, so a text and the join of its
symbols read alike, and two lists of tokens with one join are one list. -/
theorem tokenize_join_exact :
    (∀ symbols, tokenize (join symbols) = .ok symbols ↔ ∀ s ∈ symbols, tokenize s.text = .ok [s]) ∧
    (∀ source symbols, tokenize source = .ok symbols →
      (∀ s ∈ symbols, tokenize s.text = .ok [s]) ∧ tokenize (join symbols) = .ok symbols) ∧
    ∀ symbols symbols', (∀ s ∈ symbols, tokenize s.text = .ok [s]) → (∀ s ∈ symbols', tokenize s.text = .ok [s]) →
      join symbols = join symbols' → symbols = symbols' := by
  refine ⟨?_, ?_, ?_⟩
  · intro symbols
    constructor
    · intro h
      exact isToken_of_mem_tokenize h
    · intro h
      exact tokenize_join h
  · intro source symbols h
    have htokens := isToken_of_mem_tokenize h
    exact ⟨htokens, tokenize_join htokens⟩
  · intro symbols symbols' h h' hjoin
    have hread := tokenize_join h
    rw [hjoin, tokenize_join h', Except.ok.injEq] at hread
    exact hread.symm

/-- A text with a tag that has blanks inside and a letter glued to it. The symbol with the blank outside the tag is no token. -/
theorem tokenize_join_exact_tags :
    tokenize " x  [a  b]c\t[d]" = .ok [⟨"x"⟩, ⟨"[a  b]c"⟩, ⟨"[d]"⟩] ∧
      tokenize (join [⟨"x"⟩, ⟨"[a  b]c"⟩, ⟨"[d]"⟩]) = .ok [⟨"x"⟩, ⟨"[a  b]c"⟩, ⟨"[d]"⟩] ∧
      (∀ symbols', (∀ s ∈ symbols', tokenize s.text = .ok [s]) → join symbols' = "x [a  b]c [d]" →
        symbols' = [⟨"x"⟩, ⟨"[a  b]c"⟩, ⟨"[d]"⟩]) ∧
      tokenize (join [⟨"x"⟩, ⟨"a b"⟩]) ≠ .ok [⟨"x"⟩, ⟨"a b"⟩] := by
  obtain ⟨hiff, hread, hinjective⟩ := tokenize_join_exact
  have htext : tokenize " x  [a  b]c\t[d]" = .ok [⟨"x"⟩, ⟨"[a  b]c"⟩, ⟨"[d]"⟩] := by rfl
  obtain ⟨htokens, hback⟩ := hread _ _ htext
  refine ⟨htext, hback, ?_, ?_⟩
  · intro symbols' h hjoin
    exact hinjective _ _ h htokens (hjoin.trans (by rfl))
  · intro h
    have hpart := (hiff _).mp h ⟨"a b"⟩ (by simp)
    have hsplit : tokenize "a b" = .ok [⟨"a"⟩, ⟨"b"⟩] := by rfl
    rw [hsplit] at hpart
    simp at hpart

end ReplaceRules
