import Mathlib.Data.List.Forall2
import Mathlib.Data.List.Nodup
import ReplaceRules.Rule.Set

/-!
# Accepted sets of rules

A set of rules is accepted if it is made from pairs and contexts that have been read: from pairs, from parallel lists of inputs
and outputs, from rules, or by restricting an accepted set to one kind. `Valid` says what the checks have made sure of.

Main statement: an accepted set is valid. What follows in the other modules uses the wildcard law of valid sets
(`Pair.Read.input_ne_wildcard`, `Context.Read.wildcard_notMem`): no rule speaks of the wildcard, so a symbol that a machine does
not know never takes part in a match.
-/

namespace ReplaceRules

/-- A pair that has been read from its two sides. -/
def Pair.Read (p : Pair) : Prop := ∃ input output, Pair.ofSides input output = .ok p

/-- A context that has been read. -/
def Context.Read (c : Context) : Prop := ∃ source, Context.parse source = .ok c

/-- The sets of rules that can be made. -/
inductive RuleSet.Accepted : RuleSet → Prop where
  | ofPairs {pairs : List Pair} {contexts : List String} {r : RuleSet} (hp : ∀ p ∈ pairs, p.Read)
      (h : RuleSet.ofPairs pairs contexts = .ok r) : Accepted r
  | ofLists {inputs outputs contexts : List String} {r : RuleSet} (h : RuleSet.ofLists inputs outputs contexts = .ok r) :
      Accepted r
  | ofRules {rules contexts : List String} {r : RuleSet} (h : RuleSet.ofRules rules contexts = .ok r) : Accepted r
  | restrict {r r' : RuleSet} {kind : Kind} (ha : Accepted r) (h : r.restrict kind = .ok r') : Accepted r'

/-- What the checks on a set of rules make sure of: there is a pair, no input has two pairs, and all that is in it was read. -/
structure RuleSet.Valid (r : RuleSet) : Prop where
  pairs_ne_nil : r.pairs ≠ []
  inputs_nodup : (r.pairs.map (·.input)).Nodup
  pairs_read : ∀ p ∈ r.pairs, p.Read
  contexts_read : ∀ c ∈ r.contexts, c.Read

/-! ## Reading a list -/

theorem readAll_congr {α β ε : Type} {read read' : α → Except ε β} {l : List α} (h : ∀ a ∈ l, read a = read' a) :
    readAll read l = readAll read' l := by
  induction l with
  | nil => rfl
  | cons a rest ih =>
    have ha := h a List.mem_cons_self
    have hr := ih fun b hb => h b (List.mem_cons_of_mem a hb)
    simp only [readAll, ha, hr]

/-- Everything in a list that was read was read from a member. -/
theorem exists_of_mem_readAll {α β ε : Type} {read : α → Except ε β} {l : List α} {bs : List β}
    (h : readAll read l = .ok bs) : ∀ b ∈ bs, ∃ a ∈ l, read a = .ok b := by
  induction l generalizing bs with
  | nil =>
    cases h
    intro b hb
    exact absurd hb List.not_mem_nil
  | cons a rest ih =>
    unfold readAll at h
    cases hb : read a with
    | error e => simp [hb] at h
    | ok b =>
      cases hr : readAll read rest with
      | error e => simp [hb, hr] at h
      | ok bs' =>
        simp only [hb, hr, Except.ok.injEq] at h
        subst h
        intro c hc
        rcases List.mem_cons.mp hc with rfl | hc
        · exact ⟨a, List.mem_cons_self, hb⟩
        · obtain ⟨a', ha', hac⟩ := ih hr c hc
          exact ⟨a', List.mem_cons_of_mem a ha', hac⟩

/-- What was read stands where its source stands. -/
theorem getElem?_of_readAll {α β ε : Type} {read : α → Except ε β} {l : List α} {bs : List β} (h : readAll read l = .ok bs) :
    bs.length = l.length ∧ ∀ (i : Nat) (a : α), l[i]? = some a → ∃ b, bs[i]? = some b ∧ read a = .ok b := by
  induction l generalizing bs with
  | nil =>
    cases h
    exact ⟨rfl, fun i a hi => by simp at hi⟩
  | cons a rest ih =>
    unfold readAll at h
    cases hb : read a with
    | error e => simp [hb] at h
    | ok b =>
      cases hr : readAll read rest with
      | error e => simp [hb, hr] at h
      | ok bs' =>
        simp only [hb, hr, Except.ok.injEq] at h
        subst h
        obtain ⟨hl, hi⟩ := ih hr
        refine ⟨by rw [List.length_cons, hl, List.length_cons], ?_⟩
        intro i c hc
        cases i with
        | zero =>
          obtain rfl : a = c := by simpa using hc
          exact ⟨b, rfl, hb⟩
        | succ i => exact hi i c (by simpa using hc)

/-- A list is read member by member. -/
theorem readAll_eq_ok_iff {α β ε : Type} {read : α → Except ε β} {l : List α} {bs : List β} :
    readAll read l = .ok bs ↔ List.Forall₂ (fun a b => read a = .ok b) l bs := by
  induction l generalizing bs with
  | nil => simp [readAll, eq_comm]
  | cons a rest ih =>
    rw [List.forall₂_cons_left_iff, readAll]
    cases ha : read a with
    | error e => simp
    | ok b =>
      cases hr : readAll read rest with
      | error e => simp [← ih, hr]
      | ok bs' => simp [← ih, hr, eq_comm]

theorem readAll_cons_eq_error_iff {α β ε : Type} {read : α → Except ε β} {a : α} {rest : List α} {e : ε} :
    readAll read (a :: rest) = .error e ↔ read a = .error e ∨ (∃ b, read a = .ok b) ∧ readAll read rest = .error e := by
  rw [readAll]
  cases read a <;> cases readAll read rest <;> simp

/-- The error of a list is that of the first member which cannot be read. -/
theorem readAll_eq_error_iff {α β ε : Type} {read : α → Except ε β} {l : List α} {e : ε} :
    readAll read l = .error e ↔
      ∃ before a after, l = before ++ a :: after ∧ (∀ b ∈ before, ∃ c, read b = .ok c) ∧ read a = .error e := by
  induction l with
  | nil => simp [readAll]
  | cons a rest ih =>
    rw [readAll_cons_eq_error_iff, ih]
    constructor
    · rintro (ha | ⟨ha, before, c, after, rfl, hbefore, hc⟩)
      · exact ⟨[], a, rest, rfl, List.forall_mem_nil _, ha⟩
      · exact ⟨a :: before, c, after, rfl, List.forall_mem_cons.mpr ⟨ha, hbefore⟩, hc⟩
    · rintro ⟨before, c, after, heq, hbefore, hc⟩
      cases before with
      | nil =>
        obtain ⟨rfl, _⟩ := List.cons.inj heq
        exact .inl hc
      | cons d before =>
        obtain ⟨rfl, rfl⟩ := List.cons.inj heq
        obtain ⟨hd, hbefore⟩ := List.forall_mem_cons.mp hbefore
        exact .inr ⟨hd, before, c, after, rfl, hbefore, hc⟩

/-- The error of a list by its place. -/
theorem exists_of_readAll_eq_error {α β ε : Type} {read : α → Except ε β} {l : List α} {e : ε}
    (h : readAll read l = .error e) :
    ∃ (i : Nat) (a : α), l[i]? = some a ∧ read a = .error e ∧
      ∀ (j : Nat) (b : α), j < i → l[j]? = some b → ∃ c, read b = .ok c := by
  obtain ⟨before, a, after, rfl, hbefore, ha⟩ := readAll_eq_error_iff.mp h
  refine ⟨before.length, a, by simp, ha, ?_⟩
  intro j b hj hb
  rw [List.getElem?_append_left hj] at hb
  exact hbefore b (List.mem_of_getElem? hb)

/-- A list is read if each of its members can be read. -/
theorem exists_readAll {α β ε : Type} {read : α → Except ε β} {l : List α} (h : ∀ a ∈ l, ∃ b, read a = .ok b) :
    ∃ bs, readAll read l = .ok bs := by
  cases hr : readAll read l with
  | ok bs => exact ⟨bs, rfl⟩
  | error e =>
    obtain ⟨i, a, hi, ha, _⟩ := exists_of_readAll_eq_error hr
    obtain ⟨b, hb⟩ := h a (List.mem_of_getElem? hi)
    rw [ha] at hb
    nomatch hb

/-- What was read is what can be read from some member. -/
theorem mem_readAll_iff {α β ε : Type} {read : α → Except ε β} {l : List α} {bs : List β} (h : readAll read l = .ok bs)
    {b : β} : b ∈ bs ↔ ∃ a ∈ l, read a = .ok b := by
  refine ⟨exists_of_mem_readAll h b, ?_⟩
  rintro ⟨a, ha, hb⟩
  obtain ⟨i, hi⟩ := List.mem_iff_getElem?.mp ha
  obtain ⟨c, hc, hac⟩ := (getElem?_of_readAll h).2 i a hi
  rw [hac, Except.ok.injEq] at hb
  exact hb ▸ List.mem_of_getElem? hc

/-! ## The sides of pairs and contexts -/

/-- A side that is not missing is the one symbol that is read from it, and no reserved one. (The empty symbol is reserved, too, and
stands for a missing side.) -/
theorem parseSide_eq_some_iff {source : String} {s : Symbol} :
    parseSide source = .ok (some s) ↔ tokenize source = .ok [s] ∧ s.isReserved = false := by
  unfold parseSide
  split
  · next ht => simp [ht]
  · next ht => simp [ht]
  · next s' ht =>
    rw [ht, Except.ok.injEq, List.cons_eq_cons, and_iff_left rfl]
    split
    · next he =>
      have hr : s'.isReserved = true := by rw [he]; decide
      constructor
      · intro h
        nomatch h
      · rintro ⟨rfl, hs⟩
        rw [hr] at hs
        nomatch hs
    · split
      · next hr =>
        constructor
        · intro h
          nomatch h
        · rintro ⟨rfl, hs⟩
          exact absurd hr (Bool.eq_false_iff.mp hs)
      · next hr =>
        rw [Except.ok.injEq, Option.some.injEq]
        constructor
        · rintro rfl
          exact ⟨rfl, Bool.eq_false_iff.mpr hr⟩
        · exact And.left
  · next hmany ht =>
    constructor
    · intro h
      nomatch h
    · rintro ⟨h, _⟩
      rw [ht, Except.ok.injEq] at h
      exact absurd h (hmany s)

theorem not_isReserved_of_parseSide {source : String} {s : Symbol} (h : parseSide source = .ok (some s)) :
    s.isReserved = false := (parseSide_eq_some_iff.mp h).2

theorem ne_wildcard_of_parseSide {source : String} {s : Symbol} (h : parseSide source = .ok (some s)) : s ≠ .wildcard := by
  intro hw
  have hr := not_isReserved_of_parseSide h
  rw [hw] at hr
  exact absurd hr (by decide)

/-- A pair that has been read has the sides that were read. -/
theorem Pair.Read.sides_eq {p : Pair} (h : p.Read) :
    (∃ i o, p = .assimilation i o ∧ (∃ source, parseSide source = .ok (some i)) ∧ ∃ source, parseSide source = .ok (some o)) ∨
      (∃ i, p = .deletion i ∧ ∃ source, parseSide source = .ok (some i)) ∨
      ∃ o, p = .insertion o ∧ ∃ source, parseSide source = .ok (some o) := by
  obtain ⟨input, output, h⟩ := h
  unfold Pair.ofSides at h
  cases hi : parseSide input with
  | error e => simp [hi] at h
  | ok i =>
    cases ho : parseSide output with
    | error e => simp [hi, ho] at h
    | ok o =>
      cases i <;> cases o <;> simp only [hi, ho, Except.ok.injEq, reduceCtorEq] at h <;> subst h
      · exact Or.inr (Or.inr ⟨_, rfl, output, ho⟩)
      · exact Or.inr (Or.inl ⟨_, rfl, input, hi⟩)
      · exact Or.inl ⟨_, _, rfl, ⟨input, hi⟩, output, ho⟩

/-- The input and the output of a pair are a side that was read, or the empty symbol for the missing side. -/
theorem Pair.Read.sides {p : Pair} (h : p.Read) :
    (p.input = .empty ∨ ∃ source, parseSide source = .ok (some p.input)) ∧
      (p.output = .empty ∨ ∃ source, parseSide source = .ok (some p.output)) := by
  rcases h.sides_eq with ⟨i, o, rfl, hi, ho⟩ | ⟨i, rfl, hi⟩ | ⟨o, rfl, ho⟩
  · exact ⟨Or.inr hi, Or.inr ho⟩
  · exact ⟨Or.inr hi, Or.inl rfl⟩
  · exact ⟨Or.inl rfl, Or.inr ho⟩

/-- A side that was read is not the empty symbol. -/
theorem ne_empty_of_parseSide {s : Symbol} (h : ∃ source, parseSide source = .ok (some s)) : s ≠ .empty := by
  obtain ⟨source, h⟩ := h
  intro he
  have hr := not_isReserved_of_parseSide h
  rw [he] at hr
  exact absurd hr (by decide)

/-- A pair that has been read is known by its input and its output. -/
theorem Pair.Read.ext {p q : Pair} (hp : p.Read) (hq : q.Read) (hi : p.input = q.input) (ho : p.output = q.output) : p = q := by
  rcases hp.sides_eq with ⟨i, o, rfl, hpi, hpo⟩ | ⟨i, rfl, hpi⟩ | ⟨o, rfl, hpo⟩ <;>
    rcases hq.sides_eq with ⟨i', o', rfl, hqi, hqo⟩ | ⟨i', rfl, hqi⟩ | ⟨o', rfl, hqo⟩
  · obtain rfl : i = i' := hi
    exact congrArg (Pair.assimilation i) ho
  · exact absurd ho (ne_empty_of_parseSide hpo)
  · exact absurd hi (ne_empty_of_parseSide hpi)
  · exact absurd ho.symm (ne_empty_of_parseSide hqo)
  · exact congrArg Pair.deletion hi
  · exact absurd hi (ne_empty_of_parseSide hpi)
  · exact absurd hi.symm (ne_empty_of_parseSide hqi)
  · exact absurd hi.symm (ne_empty_of_parseSide hqi)
  · exact congrArg Pair.insertion ho

/-- No pair inserts a sentinel. -/
theorem Pair.Read.isSentinel_insertion {x : Symbol} (h : (Pair.insertion x).Read) : x.isSentinel = false := by
  rcases h.sides_eq with ⟨_, _, he, _⟩ | ⟨_, he, _⟩ | ⟨o, he, source, hs⟩
  · nomatch he
  · nomatch he
  · cases he
    have hr := not_isReserved_of_parseSide hs
    simp only [Symbol.isReserved, Bool.or_eq_false_iff] at hr
    simp only [Symbol.isSentinel, hr.1.1.2, hr.1.2, Bool.or_self]

/-- No pair replaces the wildcard. -/
theorem Pair.Read.input_ne_wildcard {p : Pair} (h : p.Read) : p.input ≠ .wildcard := by
  rcases h.sides.1 with he | ⟨source, hs⟩
  · rw [he]
    decide
  · exact ne_wildcard_of_parseSide hs

/-- No pair replaces the boundary. -/
theorem Pair.Read.input_ne_boundary {p : Pair} (h : p.Read) : p.input ≠ .boundary := by
  rcases h.sides.1 with he | ⟨source, hs⟩
  · rw [he]
    decide
  · intro hb
    have hr := not_isReserved_of_parseSide hs
    rw [hb] at hr
    exact absurd hr (by decide)

/-- No pair writes the wildcard. -/
theorem Pair.Read.output_ne_wildcard {p : Pair} (h : p.Read) : p.output ≠ .wildcard := by
  rcases h.sides.2 with he | ⟨source, hs⟩
  · rw [he]
    decide
  · exact ne_wildcard_of_parseSide hs

/-- Each symbol of a context has a place. -/
theorem Context.exists_mem_places {c : Context} {s : Symbol} (h : s ∈ c.left ∨ s ∈ c.right) : ∃ outer, (outer, s) ∈ c.places := by
  unfold Context.places
  rcases h with h | h
  · cases hl : c.left with
    | nil => simp [hl] at h
    | cons first inner =>
      rw [hl] at h
      rcases List.mem_cons.mp h with rfl | h
      · exact ⟨true, by simp⟩
      · exact ⟨false, by simp [h]⟩
  · obtain ⟨init, last, hr⟩ := (List.eq_nil_or_concat c.right).resolve_left (List.ne_nil_of_mem h)
    rw [hr, List.concat_eq_append] at h
    rw [hr, List.concat_eq_append]
    rcases List.mem_append.mp h with h | h
    · exact ⟨false, by simp [h]⟩
    · rw [List.mem_singleton] at h
      exact ⟨true, by simp [h]⟩

/-- A context that has been read has no fault. -/
theorem Context.Read.fault?_eq_none {c : Context} (h : c.Read) : ∃ source, c.fault? source = none := by
  obtain ⟨source, h⟩ := h
  unfold Context.parse at h
  split at h
  · nomatch h
  · split at h
    · dsimp only at h
      split at h
      · nomatch h
      · cases h
        exact ⟨source, ‹_›⟩
    · nomatch h

/-- The only reserved symbol of a context that has been read is the boundary. -/
theorem Context.Read.eq_boundary_or {c : Context} (h : c.Read) {s : Symbol} (hs : s ∈ c.left ∨ s ∈ c.right) :
    s = .boundary ∨ s.isReserved = false := by
  obtain ⟨source, hf⟩ := h.fault?_eq_none
  obtain ⟨outer, ho⟩ := Context.exists_mem_places hs
  have hn := List.findSome?_eq_none_iff.mp hf (outer, s) ho
  by_cases hb : s = .boundary
  · exact Or.inl hb
  · right
    simp only [hb, if_false] at hn
    by_cases hr : s.isReserved
    · simp [hr] at hn
    · simpa using hr

/-- No context speaks of the wildcard. -/
theorem Context.Read.wildcard_notMem {c : Context} (h : c.Read) : ¬(Symbol.wildcard ∈ c.left ∨ Symbol.wildcard ∈ c.right) := by
  intro hw
  rcases h.eq_boundary_or hw with hb | hr
  · exact absurd hb (by decide)
  · exact absurd hr (by decide)

/-- A symbol that is not at the outer end of its side has an inner place. -/
theorem Context.mem_places_of_inner {c : Context} {s : Symbol} (h : s ∈ c.left.tail ∨ s ∈ c.right.dropLast) :
    (false, s) ∈ c.places := by
  unfold Context.places
  rcases h with h | h
  · cases hl : c.left with
    | nil => simp [hl] at h
    | cons first inner =>
      rw [hl, List.tail_cons] at h
      simp [h]
  · exact List.mem_append_left _ (List.mem_append_right _ (List.mem_map_of_mem h))

/-- A context that has been read has boundaries at the outer ends of its sides only. -/
theorem Context.Read.boundary_notMem_inner {c : Context} (h : c.Read) :
    ¬(Symbol.boundary ∈ c.left.tail ∨ Symbol.boundary ∈ c.right.dropLast) := by
  intro hb
  obtain ⟨source, hf⟩ := h.fault?_eq_none
  have hn := List.findSome?_eq_none_iff.mp hf _ (Context.mem_places_of_inner hb)
  simp at hn

/-! ## Sets of rules -/

/-- A pair is added if its input is new, dropped if it is known with its output, and refused if it is known with another one. -/
theorem addPairs_cons_cases (kept : List Pair) (p : Pair) :
    ((∀ q ∈ kept, q.input ≠ p.input) ∧ ∀ rest, addPairs kept (p :: rest) = addPairs (kept ++ [p]) rest) ∨
      ∃ q ∈ kept, q.input = p.input ∧
        (q.output = p.output ∧ (∀ rest, addPairs kept (p :: rest) = addPairs kept rest) ∨
          q.output ≠ p.output ∧
            ∀ rest, addPairs kept (p :: rest) = .error (.ambiguous p.input.text q.output.text p.output.text)) := by
  cases hf : kept.find? (·.input = p.input) with
  | none =>
    refine .inl ⟨by simpa using List.find?_eq_none.mp hf, fun rest => ?_⟩
    simp only [addPairs, hf]
  | some q =>
    refine .inr ⟨q, List.mem_of_find?_eq_some hf, by simpa using List.find?_some hf, ?_⟩
    by_cases ho : q.output = p.output
    · exact .inl ⟨ho, fun rest => by simp only [addPairs, hf, if_pos ho]⟩
    · exact .inr ⟨ho, fun rest => by simp only [addPairs, hf, if_neg ho]⟩

/-- Adding pairs keeps the inputs different, and adds nothing but the pairs. -/
theorem addPairs_eq_ok {kept pairs added : List Pair} (h : addPairs kept pairs = .ok added)
    (hk : (kept.map (·.input)).Nodup) :
    (added.map (·.input)).Nodup ∧ ∀ p ∈ added, p ∈ kept ∨ p ∈ pairs := by
  induction pairs generalizing kept with
  | nil =>
    cases h
    exact ⟨hk, fun p hp => Or.inl hp⟩
  | cons p rest ih =>
    rcases addPairs_cons_cases kept p with ⟨hnew, heq⟩ | ⟨q, _, _, ⟨_, heq⟩ | ⟨_, heq⟩⟩
    · rw [heq] at h
      have hn : ((kept ++ [p]).map (·.input)).Nodup := by
        rw [List.map_append, List.nodup_append]
        refine ⟨hk, by simp, ?_⟩
        intro a ha b hb hab
        obtain ⟨q, hq, rfl⟩ := List.mem_map.mp ha
        rw [List.map_singleton, List.mem_singleton] at hb
        exact hnew q hq (hab.trans hb)
      obtain ⟨hd, hm⟩ := ih h hn
      refine ⟨hd, ?_⟩
      intro q hq
      rcases hm q hq with hq | hq
      · rcases List.mem_append.mp hq with hq | hq
        · exact Or.inl hq
        · rw [List.mem_singleton] at hq
          exact Or.inr (hq ▸ List.mem_cons_self)
      · exact Or.inr (List.mem_cons_of_mem p hq)
    · rw [heq] at h
      obtain ⟨hd, hm⟩ := ih h hk
      exact ⟨hd, fun q hq => (hm q hq).imp_right (List.mem_cons_of_mem p)⟩
    · rw [heq] at h
      nomatch h

/-- What has been added gives every pair's input the output of that pair, and keeps what was there. -/
theorem exists_of_addPairs {kept pairs added : List Pair} (h : addPairs kept pairs = .ok added) :
    (∀ p ∈ kept, p ∈ added) ∧ ∀ p ∈ pairs, ∃ q ∈ added, q.input = p.input ∧ q.output = p.output := by
  induction pairs generalizing kept with
  | nil =>
    cases h
    exact ⟨fun p hp => hp, fun p hp => absurd hp List.not_mem_nil⟩
  | cons p rest ih =>
    rcases addPairs_cons_cases kept p with ⟨_, heq⟩ | ⟨q, hq, hi, ⟨ho, heq⟩ | ⟨_, heq⟩⟩
    · rw [heq] at h
      obtain ⟨hk, hr⟩ := ih h
      refine ⟨fun q hq => hk q (List.mem_append_left _ hq), ?_⟩
      intro q hq
      rcases List.mem_cons.mp hq with rfl | hq
      · exact ⟨q, hk q (List.mem_append_right _ List.mem_cons_self), rfl, rfl⟩
      · exact hr q hq
    · rw [heq] at h
      obtain ⟨hk, hr⟩ := ih h
      refine ⟨hk, ?_⟩
      intro q' hq'
      rcases List.mem_cons.mp hq' with rfl | hq'
      · exact ⟨q, hk q hq, hi, ho⟩
      · exact hr q' hq'
    · rw [heq] at h
      nomatch h

/-- Pairs can be added if pairs with the same input have the same output. -/
theorem exists_addPairs {kept pairs : List Pair}
    (h : ∀ p ∈ kept ++ pairs, ∀ q ∈ pairs, p.input = q.input → p.output = q.output) : ∃ added, addPairs kept pairs = .ok added := by
  induction pairs generalizing kept with
  | nil => exact ⟨kept, rfl⟩
  | cons p rest ih =>
    rcases addPairs_cons_cases kept p with ⟨_, heq⟩ | ⟨q, hq, hi, ⟨_, heq⟩ | ⟨hne, _⟩⟩
    · rw [heq]
      exact ih fun q hq q' hq' => h q (by simpa using hq) q' (List.mem_cons_of_mem p hq')
    · rw [heq]
      refine ih fun q' hq' q'' hq'' => h q' ?_ q'' (List.mem_cons_of_mem p hq'')
      rcases List.mem_append.mp hq' with hq' | hq'
      · exact List.mem_append_left _ hq'
      · exact List.mem_append_right _ (List.mem_cons_of_mem p hq')
    · exact absurd (h q (List.mem_append_left _ hq) p List.mem_cons_self hi) hne

/-- The pairs of a set are the pairs that it was made from. -/
theorem RuleSet.mem_pairs_iff_of_addPairs {pairs added : List Pair} (h : addPairs [] pairs = .ok added)
    (hread : ∀ p ∈ pairs, p.Read) {p : Pair} : p ∈ added ↔ p ∈ pairs := by
  have hfrom : ∀ q ∈ added, q ∈ pairs := fun q hq => ((addPairs_eq_ok h (by simp)).2 q hq).resolve_left List.not_mem_nil
  refine ⟨hfrom p, ?_⟩
  intro hp
  obtain ⟨q, hq, hi, ho⟩ := (exists_of_addPairs h).2 p hp
  rwa [Pair.Read.ext (hread p hp) (hread q (hfrom q hq)) hi.symm ho.symm]

/-- In what was added, pairs with the same input have the same output. -/
theorem RuleSet.output_eq_of_addPairs {pairs added : List Pair} (h : addPairs [] pairs = .ok added) {p q : Pair}
    (hp : p ∈ pairs) (hq : q ∈ pairs) (hi : p.input = q.input) : p.output = q.output := by
  obtain ⟨p', hp', hpi, hpo⟩ := (exists_of_addPairs h).2 p hp
  obtain ⟨q', hq', hqi, hqo⟩ := (exists_of_addPairs h).2 q hq
  have heq : p' = q' := List.inj_on_of_nodup_map (addPairs_eq_ok h (by simp)).1 hp' hq' (by rw [hpi, hqi, hi])
  rw [← hpo, ← hqo, heq]

/-- The shapes of contexts are those that some of them have. -/
theorem mem_shapesOf_iff {contexts : List Context} {s : Shape} : s ∈ shapesOf contexts ↔ ∃ c ∈ contexts, c.shape = s := by
  have hall : s ∈ Shape.all := by cases s <;> decide
  simp [shapesOf, hall]

/-- There is at most one shape if all contexts have the same. -/
theorem length_shapesOf_le_one_iff {contexts : List Context} :
    (shapesOf contexts).length ≤ 1 ↔ ∀ c ∈ contexts, ∀ d ∈ contexts, c.shape = d.shape := by
  have hnodup : (shapesOf contexts).Nodup := List.Nodup.sublist List.filter_sublist (by decide : Shape.all.Nodup)
  constructor
  · intro h c hc d hd
    have hcs := mem_shapesOf_iff.mpr ⟨c, hc, rfl⟩
    have hds := mem_shapesOf_iff.mpr ⟨d, hd, rfl⟩
    obtain ⟨s, hs⟩ := List.length_eq_one_iff.mp (Nat.le_antisymm h (List.length_pos_of_mem hcs))
    rw [hs, List.mem_singleton] at hcs hds
    rw [hcs, hds]
  · intro h
    match hs : shapesOf contexts with
    | [] => exact Nat.zero_le 1
    | [_] => exact Nat.le_refl 1
    | s :: t :: rest =>
      obtain ⟨c, hc, hcs⟩ := mem_shapesOf_iff.mp (hs ▸ List.mem_cons_self : s ∈ shapesOf contexts)
      obtain ⟨d, hd, hdt⟩ := mem_shapesOf_iff.mp (hs ▸ List.mem_cons_of_mem s List.mem_cons_self : t ∈ shapesOf contexts)
      have hst : s = t := by rw [← hcs, ← hdt, h c hc d hd]
      rw [hs, hst] at hnodup
      simp at hnodup

/-- When pairs and contexts make a set of rules, and which. -/
theorem RuleSet.ofContexts_eq_ok_iff {pairs : List Pair} {contexts : List Context} {r : RuleSet} :
    RuleSet.ofContexts pairs contexts = .ok r ↔
      (shapesOf contexts).length ≤ 1 ∧ mixesInsertion pairs = false ∧ addPairs [] pairs = .ok r.pairs ∧ r.pairs ≠ [] ∧
        r.contexts = if shapesOf contexts = [.free] then [] else contexts.eraseDups := by
  unfold RuleSet.ofContexts
  by_cases hs : (shapesOf contexts).length > 1
  · simp only [if_pos hs, reduceCtorEq, false_iff, not_and]
    exact fun hle => absurd hle (by omega)
  · rw [if_neg hs]
    cases hm : mixesInsertion pairs with
    | true => simp
    | false =>
      cases ha : addPairs [] pairs with
      | error e => simp
      | ok kept =>
        cases kept with
        | nil =>
          simp only [Bool.false_eq_true, if_false, reduceCtorEq, false_iff, Except.ok.injEq]
          rintro ⟨_, _, hn, hne, _⟩
          exact hne hn.symm
        | cons p rest =>
          simp only [Bool.false_eq_true, if_false, Except.ok.injEq, true_and]
          constructor
          · rintro rfl
            exact ⟨by omega, rfl, by simp, rfl⟩
          · rintro ⟨_, hp, _, hc⟩
            cases r
            simp only at hp hc
            rw [hp, hc]

/-- A set of pairs and contexts that have been read is valid. -/
theorem RuleSet.valid_of_ofContexts {pairs : List Pair} {contexts : List Context} {r : RuleSet}
    (h : RuleSet.ofContexts pairs contexts = .ok r) (hp : ∀ p ∈ pairs, p.Read) (hc : ∀ c ∈ contexts, c.Read) : r.Valid := by
  obtain ⟨_, _, ha, hne, hcontexts⟩ := RuleSet.ofContexts_eq_ok_iff.mp h
  obtain ⟨hd, hm⟩ := addPairs_eq_ok ha (by simp)
  refine ⟨hne, hd, ?_, ?_⟩
  · intro q hq
    exact hp q ((hm q hq).resolve_left List.not_mem_nil)
  · intro c hcm
    rw [hcontexts] at hcm
    split at hcm
    · exact absurd hcm List.not_mem_nil
    · exact hc c (List.mem_eraseDups.mp hcm)

/-- The contexts of a set are read before the set is made. -/
theorem RuleSet.exists_ofContexts_of_ofPairs {pairs : List Pair} {contexts : List String} {r : RuleSet}
    (h : RuleSet.ofPairs pairs contexts = .ok r) :
    ∃ parsed, (∀ c ∈ parsed, c.Read) ∧ RuleSet.ofContexts pairs parsed = .ok r := by
  unfold RuleSet.ofPairs at h
  cases hc : readAll Context.parse contexts with
  | error e => simp [hc] at h
  | ok parsed =>
    simp only [hc] at h
    refine ⟨parsed, ?_, h⟩
    intro c hcm
    obtain ⟨source, _, hs⟩ := exists_of_mem_readAll hc c hcm
    exact ⟨source, hs⟩

/-- What is made of pairs that were read is valid. -/
theorem RuleSet.valid_of_ofPairs {pairs : List Pair} {contexts : List String} {r : RuleSet}
    (h : RuleSet.ofPairs pairs contexts = .ok r) (hp : ∀ p ∈ pairs, p.Read) : r.Valid := by
  obtain ⟨parsed, hc, hr⟩ := RuleSet.exists_ofContexts_of_ofPairs h
  exact RuleSet.valid_of_ofContexts hr hp hc

/-- A rule is read through its two sides. -/
theorem Pair.read_of_parse {rule : String} {p : Pair} (h : Pair.parse rule = .ok p) : p.Read := by
  unfold Pair.parse at h
  split at h
  · exact ⟨_, _, h⟩
  · nomatch h

/-- The pairs of parallel lists are read from two sides. -/
theorem RuleSet.read_of_pairsOfLists {inputs outputs : List String} {pairs : List Pair}
    (h : RuleSet.pairsOfLists inputs outputs = .ok pairs) : ∀ p ∈ pairs, p.Read := by
  unfold RuleSet.pairsOfLists at h
  split at h
  · nomatch h
  · intro p hp
    obtain ⟨⟨i, o⟩, _, hs⟩ := exists_of_mem_readAll h p hp
    exact ⟨i, o, hs⟩

/-- An accepted set is made from pairs and contexts that have been read. -/
theorem RuleSet.Accepted.exists_ofContexts {r : RuleSet} (h : r.Accepted) :
    ∃ pairs contexts, (∀ p ∈ pairs, p.Read) ∧ (∀ c ∈ contexts, c.Read) ∧ RuleSet.ofContexts pairs contexts = .ok r := by
  induction h with
  | @ofPairs pairs contexts r hp h => exact ⟨pairs, (RuleSet.exists_ofContexts_of_ofPairs h).imp fun _ hc => ⟨hp, hc⟩⟩
  | @ofLists inputs outputs contexts r h =>
    unfold RuleSet.ofLists at h
    cases hl : RuleSet.pairsOfLists inputs outputs with
    | error e => simp [hl] at h
    | ok pairs =>
      simp only [hl] at h
      exact ⟨pairs, (RuleSet.exists_ofContexts_of_ofPairs h).imp fun _ hc => ⟨RuleSet.read_of_pairsOfLists hl, hc⟩⟩
  | @ofRules rules contexts r h =>
    unfold RuleSet.ofRules at h
    cases hr : readAll Pair.parse rules with
    | error e => simp [hr] at h
    | ok pairs =>
      simp only [hr] at h
      refine ⟨pairs, (RuleSet.exists_ofContexts_of_ofPairs h).imp fun _ hc => ⟨?_, hc⟩⟩
      intro p hp
      obtain ⟨rule, _, hs⟩ := exists_of_mem_readAll hr p hp
      exact Pair.read_of_parse hs
  | restrict _ h ih =>
    unfold RuleSet.restrict at h
    split at h
    · nomatch h
    · cases h
      exact ih

/-- An accepted set is valid. -/
theorem RuleSet.Accepted.valid {r : RuleSet} (h : r.Accepted) : r.Valid := by
  obtain ⟨pairs, contexts, hp, hc, hr⟩ := h.exists_ofContexts
  exact RuleSet.valid_of_ofContexts hr hp hc

theorem Pair.eq_insertion_of_kind {p : Pair} (h : p.kind = .insertion) : p = .insertion p.output := by
  cases p with
  | assimilation i o => nomatch h
  | deletion i => nomatch h
  | insertion o => rfl

/-- All pairs that insert have the same input, so an accepted set that inserts has one pair. -/
theorem RuleSet.Accepted.exists_pairs_eq {r : RuleSet} (h : r.Accepted) (hi : r.inserts = true) :
    ∃ x, r.pairs = [.insertion x] := by
  obtain ⟨pairs, contexts, _, _, hr⟩ := h.exists_ofContexts
  obtain ⟨_, hmix, hadd, _, _⟩ := RuleSet.ofContexts_eq_ok_iff.mp hr
  obtain ⟨hnodup, hfrom⟩ := addPairs_eq_ok hadd (by simp)
  have hmem : ∀ p ∈ r.pairs, p ∈ pairs := fun p hp => (hfrom p hp).resolve_left List.not_mem_nil
  have hinserts : ∀ p ∈ r.pairs, p = .insertion p.output := by
    obtain ⟨q, hq, hqk⟩ := List.any_eq_true.mp hi
    have hsome : (pairs.any (·.kind = .insertion)) = true := List.any_eq_true.mpr ⟨q, hmem q hq, hqk⟩
    rw [mixesInsertion, hsome, Bool.true_and, List.any_eq_false] at hmix
    intro p hp
    exact Pair.eq_insertion_of_kind (by simpa using hmix p (hmem p hp))
  cases hps : r.pairs with
  | nil => simp [RuleSet.inserts, hps] at hi
  | cons p rest =>
    rw [hps] at hinserts hnodup
    have hp := hinserts p List.mem_cons_self
    cases rest with
    | nil => exact ⟨p.output, congrArg (fun q => [q]) hp⟩
    | cons q rest =>
      have hq := hinserts q (List.mem_cons_of_mem p List.mem_cons_self)
      rw [hp, hq] at hnodup
      simp [Pair.input] at hnodup

/-- All contexts of an accepted set have its shape. -/
theorem RuleSet.Accepted.shape_eq {r : RuleSet} (h : r.Accepted) {c : Context} (hc : c ∈ r.contexts) : c.shape = r.shape := by
  obtain ⟨pairs, contexts, _, _, hr⟩ := h.exists_ofContexts
  obtain ⟨hshapes, _, _, _, hcontexts⟩ := RuleSet.ofContexts_eq_ok_iff.mp hr
  have hmem : ∀ d ∈ r.contexts, d ∈ contexts := by
    intro d hd
    rw [hcontexts] at hd
    split at hd
    · exact absurd hd List.not_mem_nil
    · exact List.mem_eraseDups.mp hd
  unfold RuleSet.shape
  split
  · next hnil =>
    rw [hnil] at hc
    exact absurd hc List.not_mem_nil
  · next d rest hcons =>
    have hd := hmem d (hcons ▸ List.mem_cons_self)
    exact length_shapesOf_le_one_iff.mp hshapes c (hmem c hc) d hd

/-- An environment is a context that is matched, or has no sides. -/
theorem RuleSet.mem_matchingContexts_or {r : RuleSet} {c : Context} (h : c ∈ r.environments) :
    c ∈ r.matchingContexts ∨ c = .free := by
  unfold RuleSet.environments at h
  split at h
  · exact Or.inr (List.mem_singleton.mp h)
  · exact Or.inl h

/-- An environment has no sides, or it is a context as it is matched: with gaps if the rules insert. -/
theorem RuleSet.eq_free_or_exists_context {r : RuleSet} {c : Context} (h : c ∈ r.environments) :
    c = .free ∨ ∃ d ∈ r.contexts, c = if r.inserts then d.interleaved else d := by
  rcases RuleSet.mem_matchingContexts_or h with hm | rfl
  · right
    unfold RuleSet.matchingContexts at hm
    split at hm
    · next hi =>
      obtain ⟨d, hd, rfl⟩ := List.mem_map.mp hm
      exact ⟨d, hd, by rw [if_pos hi]⟩
    · next hi => exact ⟨c, hm, by rw [if_neg hi]⟩
  · exact Or.inl rfl

/-! ## A set of rules -/

/-- Rules whose contexts overlap: after `y z a b d` it is settled that `b` is replaced, because of the `y z a` before it,
while it is still open whether `a` is, which depends on what follows. -/
def RuleSet.overlapping : RuleSet where
  pairs := [.assimilation ⟨"a"⟩ ⟨"A"⟩, .assimilation ⟨"b"⟩ ⟨"B"⟩]
  contexts := [⟨[⟨"y"⟩, ⟨"z"⟩, ⟨"a"⟩], [⟨"d"⟩]⟩, ⟨[⟨"z"⟩], [⟨"b"⟩, ⟨"d"⟩, ⟨"e"⟩]⟩]

theorem RuleSet.accepted_overlapping : RuleSet.overlapping.Accepted := by
  have h : RuleSet.ofRules ["a -> A", "b -> B"] ["y z a _ d", "z _ b d e"] = .ok .overlapping := by rfl
  exact .ofRules h

end ReplaceRules
