import Mathlib.Data.List.Induction
import Mathlib.Data.List.Sort
import ReplaceRules.Proofs.Tokens

/-!
# What a scan finds

A text is looked at as a whole, with one bracket state that runs through it from its first character to its last. A bracket that
does not fit this state is a fault, and so is a tag that the end of the text leaves open; blanks outside tags separate. This says
what a text reads as, without saying how it is read: its symbols are the maximal non-empty stretches between separators
(`IsStretch`), and the error is the first fault (`FirstFault`).

Main statements: a scan finds exactly that (`scan_eq_iff`), and there is one way to read a text (`Reads.unique`). The lemmas speak
of a scan from some place on (`Reads`). The invariant that carries the induction is `Stands`: the scan knows the stretch that has
begun and the bracket that is open.
-/

namespace ReplaceRules

namespace Tokens

/-! ## The bracket state of a text -/

/-- The bracket state after a character: open after an opening bracket, closed after a closing one. -/
def stateAfter (inTag : Bool) (c : Char) : Bool := if c = '[' then true else if c = ']' then false else inTag

/-- Whether a tag is open after some characters. -/
def opens (text : List Char) : Bool := text.foldl stateAfter false

/-- The byte at which a place of a text begins. -/
def byteOffset (text : List Char) (place : Nat) : Nat := (String.ofList (text.take place)).utf8ByteSize

/-- A place separates if a blank stands there, outside tags. -/
def Separates (text : List Char) (place : Nat) : Prop :=
  ∃ c, text[place]? = some c ∧ isBlank c = true ∧ opens (text.take place) = false

/-- What a scan of a text meets at a place and reports with a byte offset. A tag that stays open is met at the end of the text,
and reported with the offset of its bracket. -/
inductive FaultAt (text : List Char) : Nat → TagFault → Nat → Prop where
  | unexpectedClose {place : Nat} (hc : text[place]? = some ']') (hstate : opens (text.take place) = false) :
      FaultAt text place .unexpectedClose (byteOffset text place)
  | nested {place : Nat} (hc : text[place]? = some '[') (hstate : opens (text.take place) = true) :
      FaultAt text place .nested (byteOffset text place)
  | unclosed {place : Nat} (hstate : opens text = true) (hc : text[place]? = some '[')
      (hlast : ∀ later, place < later → text[later]? ≠ some '[') : FaultAt text text.length .unclosed (byteOffset text place)

/-- The first fault that a scan meets. -/
def FirstFault (text : List Char) (place : Nat) (fault : TagFault) (position : Nat) : Prop :=
  FaultAt text place fault position ∧ ∀ place' fault' position', FaultAt text place' fault' position' → place ≤ place'

/-- A scan of a text meets no fault. -/
def Faultless (text : List Char) : Prop := ∀ place fault position, ¬FaultAt text place fault position

/-- A stretch without separators that begins with the text or behind a separator. -/
structure Unbroken (text : List Char) (first last : Nat) : Prop where
  le : first ≤ last
  joined : ∀ place, first ≤ place → place < last → ¬Separates text place
  begins : ∀ place, place + 1 = first → Separates text place

/-- A maximal non-empty stretch of a text without separators. -/
structure IsStretch (text : List Char) (first last : Nat) : Prop extends Unbroken text first last where
  lt : first < last
  ends : last = text.length ∨ Separates text last

/-- Symbols are the texts of all stretches of some sort, from left to right. -/
def InOrder (text : List Char) (stretch : Nat → Nat → Prop) (symbols : List Symbol) : Prop :=
  ∃ places : List (Nat × Nat), places.Pairwise (fun p q => p.2 < q.1) ∧
    (∀ first last, (first, last) ∈ places ↔ stretch first last) ∧
    symbols = places.map fun p => ⟨String.ofList (text.extract p.1 p.2)⟩

section Places

variable {text rest : List Char} {place first last : Nat} {c : Char}

theorem getElem?_of_drop (h : text.drop place = c :: rest) : text[place]? = some c := by
  have := congrArg (·[0]?) h
  simpa using this

theorem drop_succ_of_drop (h : text.drop place = c :: rest) : text.drop (place + 1) = rest := by
  rw [← List.tail_drop, h, List.tail_cons]

theorem lt_length_of_getElem? (h : text[place]? = some c) : place < text.length := (List.getElem?_eq_some_iff.mp h).1

/-- The bracket state behind a character follows from that before it. -/
theorem opens_take_succ (h : text[place]? = some c) : opens (text.take (place + 1)) = stateAfter (opens (text.take place)) c := by
  simp [opens, List.take_add_one, h]

/-- Behind a character the byte offset is larger by the size of the character. -/
theorem byteOffset_succ (h : text[place]? = some c) : byteOffset text (place + 1) = byteOffset text place + c.utf8Size := by
  simp [byteOffset, List.take_add_one, h, String.ofList_append]

theorem extract_succ (hle : first ≤ place) (h : text[place]? = some c) :
    text.extract first (place + 1) = text.extract first place ++ [c] := by
  have hc : (text.drop first)[place - first]? = some c := by
    rw [List.getElem?_drop, Nat.add_sub_cancel' hle]
    exact h
  simp [Nat.sub_add_comm hle, List.take_add_one, hc]

/-- Nothing is wrong with a character that is no bracket, nor with a bracket that fits the state. -/
theorem not_faultAt (hc : text[place]? = some c) (hclose : c = ']' → opens (text.take place) = true)
    (hopen : c = '[' → opens (text.take place) = false) {fault : TagFault} {position : Nat} :
    ¬FaultAt text place fault position := by
  intro h
  cases h with
  | unexpectedClose hc' hstate =>
    rw [hc, Option.some.injEq] at hc'
    rw [hclose hc'] at hstate
    nomatch hstate
  | nested hc' hstate =>
    rw [hc, Option.some.injEq] at hc'
    rw [hopen hc'] at hstate
    nomatch hstate
  | unclosed => exact absurd (lt_length_of_getElem? hc) (Nat.lt_irrefl _)

/-- No tag is open where a stretch begins. -/
theorem Unbroken.opens_eq (h : Unbroken text first last) : opens (text.take first) = false := by
  cases first with
  | zero => rfl
  | succ place =>
    obtain ⟨c, hc, hb, hstate⟩ := h.begins place rfl
    have hopen : c ≠ '[' := by
      rintro rfl
      exact absurd hb (by decide)
    rw [opens_take_succ hc, hstate]
    simp [stateAfter, hopen]

/-- A character stands last at one place only. -/
theorem eq_of_last {place' : Nat} (h : text[place]? = some c) (hlast : ∀ later, place < later → text[later]? ≠ some c)
    (h' : text[place']? = some c) (hlast' : ∀ later, place' < later → text[later]? ≠ some c) : place = place' := by
  rcases Nat.lt_trichotomy place place' with hlt | rfl | hlt
  · exact absurd h' (hlast place' hlt)
  · rfl
  · exact absurd h (hlast' place hlt)

/-- At one place a scan meets one thing. -/
theorem FaultAt.unique {fault fault' : TagFault} {position position' : Nat} (h : FaultAt text place fault position)
    (h' : FaultAt text place fault' position') : fault = fault' ∧ position = position' := by
  cases h with
  | unexpectedClose hc =>
    cases h' with
    | unexpectedClose => exact ⟨rfl, rfl⟩
    | nested hc' =>
      rw [hc] at hc'
      nomatch hc'
    | unclosed => exact absurd (lt_length_of_getElem? hc) (Nat.lt_irrefl _)
  | nested hc =>
    cases h' with
    | unexpectedClose hc' =>
      rw [hc] at hc'
      nomatch hc'
    | nested => exact ⟨rfl, rfl⟩
    | unclosed => exact absurd (lt_length_of_getElem? hc) (Nat.lt_irrefl _)
  | unclosed _ hc hlast =>
    generalize hn : text.length = n at h'
    cases h' with
    | unexpectedClose hc' => exact absurd (lt_length_of_getElem? hc') (by omega)
    | nested hc' => exact absurd (lt_length_of_getElem? hc') (by omega)
    | unclosed _ hc' hlast' => exact ⟨rfl, congrArg (byteOffset text) (eq_of_last hc hlast hc' hlast')⟩

/-- Only one stretch without separators that cannot be made longer to the left ends at a place. -/
theorem Unbroken.unique {first' : Nat} (h : Unbroken text first last) (h' : Unbroken text first' last) : first = first' := by
  have hle : ∀ {m n : Nat}, Unbroken text m last → Unbroken text n last → n ≤ m := by
    intro m n hm hn
    refine Nat.le_of_not_lt fun hlt => ?_
    have hsep := hn.begins (n - 1) (by omega)
    have hnle := hn.le
    exact hm.joined (n - 1) (by omega) (by omega) hsep
  exact Nat.le_antisymm (hle h' h) (hle h h')

end Places

/-! ## Texts without a fault -/

theorem opens_concat (text : List Char) (c : Char) : opens (text ++ [c]) = stateAfter (opens text) c := by
  simp [opens]

/-- A text that leaves a tag open has a last opening bracket. -/
theorem exists_last_of_opens {text : List Char} (h : opens text = true) :
    ∃ place : Nat, text[place]? = some '[' ∧ ∀ later, place < later → text[later]? ≠ some '[' := by
  induction text using List.reverseRecOn with
  | nil => nomatch h
  | append_singleton text c ih =>
    rw [opens_concat] at h
    by_cases hc : c = '['
    · refine ⟨text.length, by simp [hc], fun later hlt hl => ?_⟩
      have := lt_length_of_getElem? hl
      simp at this
      omega
    · have ho : opens text = true := by
        by_contra hno
        simp [stateAfter, hc, hno] at h
      obtain ⟨place, hplace, hlast⟩ := ih ho
      refine ⟨place, ?_, fun later hlt hl => ?_⟩
      · rw [List.getElem?_append_left (lt_length_of_getElem? hplace)]
        exact hplace
      · rw [List.getElem?_append] at hl
        split at hl
        · exact hlast later hlt hl
        · rw [List.getElem?_singleton] at hl
          split at hl
          · exact hc (Option.some.inj hl)
          · nomatch hl

/-- No tag is open at the end of a text without a fault. -/
theorem Faultless.opens_eq (h : Faultless text) : opens text = false := by
  cases ho : opens text with
  | false => rfl
  | true =>
    obtain ⟨place, hplace, hlast⟩ := exists_last_of_opens ho
    exact absurd (.unclosed ho hplace hlast) (h _ _ _)

/-! ## Symbols in order -/

section InOrder

variable {text : List Char} {stretch stretch' : Nat → Nat → Prop} {symbols symbols' : List Symbol}

/-- Where there are no stretches there are no symbols. -/
theorem inOrder_nil (h : ∀ first last, ¬stretch first last) : InOrder text stretch [] :=
  ⟨[], List.Pairwise.nil, fun first last => by simp [h first last], rfl⟩

theorem inOrder_singleton {first last : Nat} (h : ∀ first' last', stretch first' last' ↔ first' = first ∧ last' = last) :
    InOrder text stretch [⟨String.ofList (text.extract first last)⟩] :=
  ⟨[(first, last)], List.pairwise_singleton _ _, fun first' last' => by simp [h first' last'], rfl⟩

theorem InOrder.congr (h : InOrder text stretch symbols) (hs : ∀ first last, stretch first last ↔ stretch' first last) :
    InOrder text stretch' symbols := by
  obtain ⟨places, hpairs, hmem, hsymbols⟩ := h
  exact ⟨places, hpairs, fun first last => (hmem first last).trans (hs first last), hsymbols⟩

/-- Stretches of a text before other ones. -/
theorem InOrder.append (h : InOrder text stretch symbols) (h' : InOrder text stretch' symbols')
    (hbefore : ∀ first last first' last', stretch first last → stretch' first' last' → last < first') :
    InOrder text (fun first last => stretch first last ∨ stretch' first last) (symbols ++ symbols') := by
  obtain ⟨places, hpairs, hmem, rfl⟩ := h
  obtain ⟨places', hpairs', hmem', rfl⟩ := h'
  refine ⟨places ++ places', ?_, ?_, by simp⟩
  · rw [List.pairwise_append]
    refine ⟨hpairs, hpairs', ?_⟩
    intro p hp q hq
    exact hbefore _ _ _ _ ((hmem p.1 p.2).mp hp) ((hmem' q.1 q.2).mp hq)
  · intro first last
    rw [List.mem_append, hmem, hmem']

/-- The stretches of a sort have one order, so they make one list of symbols. -/
theorem InOrder.unique (h : InOrder text stretch symbols) (h' : InOrder text stretch symbols')
    (hs : ∀ first last, stretch first last → first < last) : symbols = symbols' := by
  obtain ⟨places, hpairs, hmem, rfl⟩ := h
  obtain ⟨places', hpairs', hmem', rfl⟩ := h'
  have hsorted : ∀ {l : List (Nat × Nat)}, l.Pairwise (fun p q => p.2 < q.1) → (∀ first last, (first, last) ∈ l → first < last) →
      l.Pairwise fun p q => p.1 < q.1 := by
    intro l hl hlt
    refine hl.imp_of_mem fun {p q} hp _ hpq => ?_
    exact Nat.lt_trans (hlt p.1 p.2 hp) hpq
  have : Std.Antisymm fun p q : Nat × Nat => p.1 < q.1 := ⟨fun p q hpq hqp => absurd hqp (Nat.lt_asymm hpq)⟩
  have : Std.Irrefl fun p q : Nat × Nat => p.1 < q.1 := ⟨fun p => Nat.lt_irrefl p.1⟩
  have hplaces : places = places' := by
    refine (hsorted hpairs fun first last hp => hs _ _ ((hmem first last).mp hp)).eq_of_mem_iff
      (hsorted hpairs' fun first last hp => hs _ _ ((hmem' first last).mp hp)) ?_
    rintro ⟨first, last⟩
    rw [hmem, hmem']
  rw [hplaces]

end InOrder

/-! ## A scan from a place on -/

/-- How far a scan from some place on goes: to the first fault from there on, or to the end of the text. -/
inductive EndsAt (text : List Char) (start : Nat) : Option (TagFault × Nat) → Nat → Prop where
  | whole (h : ∀ place fault position, start ≤ place → ¬FaultAt text place fault position) : EndsAt text start none (text.length + 1)
  | broken {place : Nat} {fault : TagFault} {position : Nat} (hstart : start ≤ place) (hfault : FaultAt text place fault position)
      (hfirst : ∀ place' fault' position', start ≤ place' → FaultAt text place' fault' position' → place ≤ place') :
      EndsAt text start (some (fault, position)) place

/-- What a scan from some place on finds: the stretches that end there or later and before the fault, if there is one. -/
def Reads (text : List Char) (start : Nat) (symbols : List Symbol) (fault : Option (TagFault × Nat)) : Prop :=
  ∃ limit, EndsAt text start fault limit ∧
    InOrder text (fun first last => IsStretch text first last ∧ start ≤ last ∧ last < limit) symbols

/-- Where a scan stands: the characters of the symbol that has begun are those since the last separator, and the place of an open
tag is that of the last opening bracket. -/
structure Stands (text : List Char) (place : Nat) (opened : Option Nat) (token : List Char) : Prop where
  begun : ∃ first, Unbroken text first place ∧ token.reverse = text.extract first place
  state : opens (text.take place) = opened.isSome
  bracket : ∀ position, opened = some position → ∃ bracket, text[bracket]? = some '[' ∧
    (∀ later, bracket < later → later < place → text[later]? ≠ some '[') ∧ position = byteOffset text bracket

section From

variable {text token rest : List Char} {place start : Nat} {opened : Option Nat} {c : Char} {symbols : List Symbol}
  {fault : Option (TagFault × Nat)}

/-- A scan does not end before its start. -/
theorem EndsAt.le {limit : Nat} (h : EndsAt text start fault limit) (hs : start ≤ text.length) : start ≤ limit := by
  cases h with
  | whole => exact Nat.le_succ_of_le hs
  | broken hstart => exact hstart

/-- A scan that has passed a place meets what it meets from there on. -/
theorem EndsAt.of_succ {limit : Nat} (h : EndsAt text (place + 1) fault limit)
    (hplace : ∀ {fault position}, ¬FaultAt text place fault position) : EndsAt text place fault limit := by
  have hlater : ∀ {place' fault' position'}, place ≤ place' → FaultAt text place' fault' position' → place + 1 ≤ place' := by
    intro place' fault' position' hle hf
    refine Nat.lt_of_le_of_ne hle ?_
    rintro rfl
    exact hplace hf
  cases h with
  | whole h => exact .whole fun place' fault' position' hle hf => h _ _ _ (hlater hle hf) hf
  | broken hstart hfault hfirst =>
    exact .broken (Nat.le_of_succ_le hstart) hfault fun place' fault' position' hle hf => hfirst _ _ _ (hlater hle hf) hf

/-- A fault at the place where a scan stands is the first one it meets. -/
theorem FaultAt.reads {fault : TagFault} {position : Nat} (h : FaultAt text place fault position) :
    Reads text place [] (some (fault, position)) := by
  refine ⟨place, .broken (Nat.le_refl place) h fun _ _ _ hle _ => hle, inOrder_nil ?_⟩
  rintro first last ⟨_, hle, hlt⟩
  omega

/-- Where nothing separates and nothing is wrong, a scan goes on. -/
theorem Reads.of_succ (h : Reads text (place + 1) symbols fault) (hc : text[place]? = some c) (hs : ¬Separates text place)
    (hplace : ∀ {fault position}, ¬FaultAt text place fault position) : Reads text place symbols fault := by
  obtain ⟨limit, hends, horder⟩ := h
  refine ⟨limit, hends.of_succ hplace, horder.congr fun first last => ?_⟩
  have hlast : IsStretch text first last → last ≠ place := by
    rintro hst rfl
    rcases hst.ends with he | he
    · exact absurd (lt_length_of_getElem? hc) (by omega)
    · exact hs he
  constructor
  · rintro ⟨hst, hle, hlt⟩
    exact ⟨hst, Nat.le_of_succ_le hle, hlt⟩
  · rintro ⟨hst, hle, hlt⟩
    exact ⟨hst, Nat.lt_of_le_of_ne hle (hlast hst).symm, hlt⟩

namespace Stands

/-- Where a scan begins. -/
theorem zero (text : List Char) : Stands text 0 none [] where
  begun := ⟨0, ⟨Nat.le_refl 0, fun place _ hlt => absurd hlt (Nat.not_lt_zero place), fun _ h => nomatch h⟩, rfl⟩
  state := rfl
  bracket := fun _ h => nomatch h

/-- A scan goes on with the symbol that has begun. -/
theorem begun_succ (h : Stands text place opened token) (hc : text[place]? = some c) (hs : ¬Separates text place) :
    ∃ first, Unbroken text first (place + 1) ∧ (c :: token).reverse = text.extract first (place + 1) := by
  obtain ⟨first, hun, htoken⟩ := h.begun
  refine ⟨first, ⟨Nat.le_succ_of_le hun.le, ?_, hun.begins⟩, ?_⟩
  · intro place' hle hlt
    rcases Nat.lt_succ_iff_lt_or_eq.mp hlt with hlt | rfl
    · exact hun.joined place' hle hlt
    · exact hs
  · rw [List.reverse_cons, htoken, extract_succ hun.le hc]

/-- Behind a separator nothing has begun. -/
theorem blank (h : Stands text place none token) (hc : text[place]? = some c) (hb : isBlank c = true) :
    Stands text (place + 1) none [] := by
  have hun : Unbroken text (place + 1) (place + 1) := by
    refine ⟨Nat.le_refl _, fun place' hle hlt => absurd hlt (by omega), fun place' he => ?_⟩
    rw [Nat.succ.inj he]
    exact ⟨c, hc, hb, h.state⟩
  exact ⟨⟨place + 1, hun, by simp⟩, hun.opens_eq, fun _ h => nomatch h⟩

/-- A character that is no blank outside tags separates nothing. -/
theorem not_separates (h : Stands text place opened token) (hc : text[place]? = some c)
    (hs : opened = none → isBlank c = false) : ¬Separates text place := by
  rintro ⟨c', hc', hb, hstate⟩
  rw [hc, Option.some.injEq] at hc'
  subst hc'
  rw [h.state, Option.isSome_eq_false_iff, Option.isNone_iff_eq_none] at hstate
  rw [hs hstate] at hb
  nomatch hb

/-- Outside a tag a scan goes on with any character but a blank and a closing bracket. -/
theorem outside (h : Stands text place none token) (hc : text[place]? = some c) (hb : isBlank c = false) (hn : c ≠ ']') :
    Stands text (place + 1) (if c = '[' then some (byteOffset text place) else none) (c :: token) := by
  refine ⟨h.begun_succ hc (h.not_separates hc fun _ => hb), ?_, ?_⟩
  · rw [opens_take_succ hc, h.state, isSome_opened]
    simp [stateAfter, hn]
  · intro position hp
    split at hp
    · next ho =>
      refine ⟨place, ho ▸ hc, fun later hl hlt => absurd hlt (by omega), (Option.some.inj hp).symm⟩
    · nomatch hp

/-- Inside a tag it goes on with any character but an opening bracket. -/
theorem inside {position : Nat} (h : Stands text place (some position) token) (hc : text[place]? = some c) (hn : c ≠ '[') :
    Stands text (place + 1) (if c = ']' then none else some position) (c :: token) := by
  refine ⟨h.begun_succ hc (h.not_separates hc fun he => nomatch he), ?_, ?_⟩
  · rw [opens_take_succ hc, h.state, isSome_closed]
    simp [stateAfter, hn]
  · intro position' hp
    split at hp
    · nomatch hp
    · obtain ⟨bracket, hbracket, hlast, hposition⟩ := h.bracket position rfl
      refine ⟨bracket, hbracket, ?_, (Option.some.inj hp).symm.trans hposition⟩
      intro later hl hlt hlater
      rcases Nat.lt_succ_iff_lt_or_eq.mp hlt with hlt | rfl
      · exact hlast later hl hlt hlater
      · rw [hc, Option.some.injEq] at hlater
        exact hn hlater

/-- At a separator and at the end of the text the symbol that has begun is a stretch. -/
theorem inOrder_complete (h : Stands text place opened token) (hends : place = text.length ∨ Separates text place) :
    InOrder text (fun first last => IsStretch text first last ∧ last = place) (complete token) := by
  obtain ⟨first, hun, htoken⟩ := h.begun
  have hfirst : ∀ first' last', IsStretch text first' last' ∧ last' = place → first' = first := by
    rintro first' last' ⟨hst, rfl⟩
    exact hst.toUnbroken.unique hun
  rcases Nat.eq_or_lt_of_le hun.le with rfl | hlt
  · have hnil : token = [] := by simpa using htoken
    rw [hnil]
    refine inOrder_nil fun first' last' hst => ?_
    have hlt := hst.1.lt
    rw [hfirst first' last' hst, hst.2] at hlt
    exact absurd hlt (Nat.lt_irrefl _)
  · have hle : place ≤ text.length := hends.elim Nat.le_of_eq fun ⟨_, hc, _⟩ => Nat.le_of_lt (lt_length_of_getElem? hc)
    have hne : token ≠ [] := by
      rintro rfl
      have := congrArg List.length htoken
      simp at this
      omega
    rw [complete_of_ne_nil hne, htoken]
    refine inOrder_singleton fun first' last' => ⟨fun hst => ⟨hfirst first' last' hst, hst.2⟩, ?_⟩
    rintro ⟨rfl, rfl⟩
    exact ⟨⟨hun, hlt, hends⟩, rfl⟩

/-- At the end of the text, outside tags, a scan completes the symbol that has begun. -/
theorem reads_end (h : Stands text text.length none token) : Reads text text.length (complete token) none := by
  have hstate := h.state
  rw [List.take_length] at hstate
  refine ⟨text.length + 1, .whole ?_, (h.inOrder_complete (.inl rfl)).congr fun first last => ?_⟩
  · intro place fault position hle hf
    cases hf with
    | unexpectedClose hc => exact absurd (lt_length_of_getElem? hc) (Nat.not_lt_of_le hle)
    | nested hc => exact absurd (lt_length_of_getElem? hc) (Nat.not_lt_of_le hle)
    | unclosed ho =>
      rw [hstate] at ho
      nomatch ho
  · constructor
    · rintro ⟨hst, rfl⟩
      exact ⟨hst, Nat.le_refl _, Nat.lt_succ_self _⟩
    · rintro ⟨hst, hle, hlt⟩
      exact ⟨hst, Nat.le_antisymm (Nat.le_of_lt_succ hlt) hle⟩

/-- At the end of the text, inside a tag, it meets the bracket that was left open. -/
theorem reads_unclosed {position : Nat} (h : Stands text text.length (some position) token) :
    Reads text text.length [] (some (.unclosed, position)) := by
  obtain ⟨bracket, hbracket, hlast, rfl⟩ := h.bracket position rfl
  have hstate := h.state
  rw [List.take_length] at hstate
  refine (FaultAt.unclosed hstate hbracket fun later hl hlater => ?_).reads
  exact hlast later hl (lt_length_of_getElem? hlater) hlater

/-- At a blank outside tags it completes the symbol that has begun, before what it finds later. -/
theorem reads_blank (h : Stands text place none token) (hc : text[place]? = some c) (hb : isBlank c = true)
    (hlater : Reads text (place + 1) symbols fault) : Reads text place (complete token ++ symbols) fault := by
  have hsep : Separates text place := ⟨c, hc, hb, h.state⟩
  obtain ⟨limit, hends, horder⟩ := hlater
  have hlimit := hends.le (lt_length_of_getElem? hc)
  refine ⟨limit, hends.of_succ ?_, ((h.inOrder_complete (.inr hsep)).append horder ?_).congr fun first last => ?_⟩
  · refine not_faultAt hc ?_ fun _ => h.state
    rintro rfl
    exact absurd hb (by decide)
  · -- What is found later begins behind this separator.
    rintro first last first' last' ⟨_, rfl⟩ ⟨hst, hle, _⟩
    exact Nat.lt_of_not_le fun hle' => hst.joined _ hle' hle hsep
  · constructor
    · rintro (⟨hst, rfl⟩ | ⟨hst, hle, hlt⟩)
      · exact ⟨hst, Nat.le_refl _, hlimit⟩
      · exact ⟨hst, Nat.le_of_succ_le hle, hlt⟩
    · rintro ⟨hst, hle, hlt⟩
      rcases Nat.eq_or_lt_of_le hle with rfl | hle
      · exact .inl ⟨hst, rfl⟩
      · exact .inr ⟨hst, hle, hlt⟩

/-- What a scan finds from where it stands on. -/
theorem reads (h : Stands text place opened token) (hrest : text.drop place = rest) (hle : place ≤ text.length) :
    Reads text place (scan opened token (byteOffset text place) rest).1 (scan opened token (byteOffset text place) rest).2 := by
  induction rest generalizing opened token place with
  | nil =>
    obtain rfl : place = text.length := Nat.le_antisymm hle (List.drop_eq_nil_iff.mp hrest)
    cases opened with
    | none => exact h.reads_end
    | some position => exact h.reads_unclosed
  | cons c rest ih =>
    have hc := getElem?_of_drop hrest
    have hrest' := drop_succ_of_drop hrest
    have hle' : place + 1 ≤ text.length := lt_length_of_getElem? hc
    cases opened with
    | none =>
      cases hb : isBlank c with
      | true =>
        rw [scan_blank hb, ← byteOffset_succ hc]
        exact h.reads_blank hc hb (ih (h.blank hc hb) hrest' hle')
      | false =>
        by_cases hn : c = ']'
        · rw [hn, scan_close]
          exact (FaultAt.unexpectedClose (hn ▸ hc) h.state).reads
        · rw [scan_outside hb hn, ← byteOffset_succ hc]
          refine (ih (h.outside hc hb hn) hrest' hle').of_succ hc (h.not_separates hc fun _ => hb) ?_
          exact not_faultAt hc (fun he => absurd he hn) fun _ => h.state
    | some position =>
      by_cases hn : c = '['
      · rw [hn, scan_nested]
        exact (FaultAt.nested (hn ▸ hc) h.state).reads
      · rw [scan_inside hn, ← byteOffset_succ hc]
        refine (ih (h.inside hc hn) hrest' hle').of_succ hc (h.not_separates hc fun he => nomatch he) ?_
        exact not_faultAt hc (fun _ => h.state) fun he => absurd he hn

end Stands

end From

/-! ## A scan of a whole text -/

section Whole

variable {text : List Char} {symbols symbols' : List Symbol} {fault fault' : Option (TagFault × Nat)}

/-- From the start, a scan without a fault reads a faultless text and all its stretches. -/
theorem reads_none_iff : Reads text 0 symbols none ↔ Faultless text ∧ InOrder text (IsStretch text) symbols := by
  have hlimit : ∀ first last, IsStretch text first last ∧ 0 ≤ last ∧ last < text.length + 1 ↔ IsStretch text first last := by
    intro first last
    refine ⟨And.left, fun h => ⟨h, Nat.zero_le _, ?_⟩⟩
    rcases h.ends with he | ⟨c, hc, _⟩
    · exact he ▸ Nat.lt_succ_self _
    · exact Nat.lt_succ_of_lt (lt_length_of_getElem? hc)
  constructor
  · rintro ⟨limit, hends, horder⟩
    cases hends with
    | whole h => exact ⟨fun place fault position => h place fault position (Nat.zero_le _), horder.congr hlimit⟩
  · rintro ⟨h, horder⟩
    exact ⟨_, .whole fun place fault position _ => h place fault position, horder.congr fun first last => (hlimit first last).symm⟩

/-- From the start, a scan with a fault stops at the first fault, after the stretches before it. -/
theorem reads_some_iff {fault : TagFault} {position : Nat} : Reads text 0 symbols (some (fault, position)) ↔
    ∃ place, FirstFault text place fault position ∧ InOrder text (fun first last => IsStretch text first last ∧ last < place) symbols := by
  constructor
  · rintro ⟨place, hends, horder⟩
    cases hends with
    | broken hstart hfault hfirst =>
      refine ⟨place, ⟨hfault, fun place' fault' position' => hfirst place' fault' position' (Nat.zero_le _)⟩, ?_⟩
      exact horder.congr fun first last => by simp
  · rintro ⟨place, ⟨hfault, hfirst⟩, horder⟩
    refine ⟨place, .broken (Nat.zero_le _) hfault fun place' fault' position' _ => hfirst place' fault' position', ?_⟩
    exact horder.congr fun first last => by simp

/-- A text has one first fault. -/
theorem FirstFault.unique {place place' : Nat} {fault fault' : TagFault} {position position' : Nat}
    (h : FirstFault text place fault position) (h' : FirstFault text place' fault' position') :
    place = place' ∧ fault = fault' ∧ position = position' := by
  obtain rfl : place = place' := Nat.le_antisymm (h.2 _ _ _ h'.1) (h'.2 _ _ _ h.1)
  exact ⟨rfl, h.1.unique h'.1⟩

/-- There is one way to read a text. -/
theorem Reads.unique (h : Reads text 0 symbols fault) (h' : Reads text 0 symbols' fault') : symbols = symbols' ∧ fault = fault' := by
  rcases fault with _ | ⟨fault, position⟩ <;> rcases fault' with _ | ⟨fault', position'⟩
  · obtain ⟨_, h⟩ := reads_none_iff.mp h
    obtain ⟨_, h'⟩ := reads_none_iff.mp h'
    exact ⟨h.unique h' fun first last hst => hst.lt, rfl⟩
  · obtain ⟨hnone, _⟩ := reads_none_iff.mp h
    obtain ⟨place, hfirst, _⟩ := reads_some_iff.mp h'
    exact absurd hfirst.1 (hnone _ _ _)
  · obtain ⟨place, hfirst, _⟩ := reads_some_iff.mp h
    obtain ⟨hnone, _⟩ := reads_none_iff.mp h'
    exact absurd hfirst.1 (hnone _ _ _)
  · obtain ⟨place, hfirst, horder⟩ := reads_some_iff.mp h
    obtain ⟨place', hfirst', horder'⟩ := reads_some_iff.mp h'
    obtain ⟨rfl, rfl, rfl⟩ := hfirst.unique hfirst'
    exact ⟨horder.unique horder' fun first last hst => hst.1.lt, rfl⟩

/-- A scan finds what there is to read in a text. -/
theorem scan_eq_iff : scan none [] 0 text = (symbols, fault) ↔ Reads text 0 symbols fault := by
  have hreads : Reads text 0 (scan none [] 0 text).1 (scan none [] 0 text).2 := (Stands.zero text).reads rfl (Nat.zero_le _)
  constructor
  · intro h
    rwa [h] at hreads
  · intro h
    obtain ⟨hsymbols, hfault⟩ := hreads.unique h
    exact Prod.ext hsymbols hfault

/-- A scan of a text with a fault returns what is complete before the first one. -/
theorem FirstFault.exists_scan {place : Nat} {fault : TagFault} {position : Nat} (h : FirstFault text place fault position) :
    ∃ symbols, scan none [] 0 text = (symbols, some (fault, position)) ∧
      InOrder text (fun first last => IsStretch text first last ∧ last < place) symbols := by
  rcases hscan : scan none [] 0 text with ⟨symbols, _ | ⟨fault', position'⟩⟩
  · obtain ⟨hnone, _⟩ := reads_none_iff.mp (scan_eq_iff.mp hscan)
    exact absurd h.1 (hnone _ _ _)
  · obtain ⟨place', hfirst, horder⟩ := reads_some_iff.mp (scan_eq_iff.mp hscan)
    obtain ⟨rfl, rfl, rfl⟩ := h.unique hfirst
    exact ⟨symbols, rfl, horder⟩

/-- The fault that a scan returns is the first one. -/
theorem exists_scan_iff {fault : TagFault} {position : Nat} :
    (∃ symbols, scan none [] 0 text = (symbols, some (fault, position))) ↔ ∃ place, FirstFault text place fault position := by
  constructor
  · rintro ⟨symbols, hscan⟩
    obtain ⟨place, hfirst, _⟩ := reads_some_iff.mp (scan_eq_iff.mp hscan)
    exact ⟨place, hfirst⟩
  · rintro ⟨place, hfirst⟩
    exact hfirst.exists_scan.imp fun symbols h => h.1

end Whole

end Tokens

/-- Only texts without a fault can be read. -/
theorem faultless_of_tokenize {source : String} {symbols : List Symbol} (h : tokenize source = .ok symbols) :
    Tokens.Faultless source.toList :=
  (Tokens.reads_none_iff.mp (Tokens.scan_eq_iff.mp (tokenize_eq_ok_iff.mp h))).1

end ReplaceRules
