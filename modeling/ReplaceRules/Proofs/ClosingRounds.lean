import ReplaceRules.Proofs.Construction

/-!
# The rounds of the closing

`Rounds` is the closing as a loop without a bound: round follows round until one adds nothing. Only that the states are finitely
many ends it, because no path outgrows the longest left side and the longest right side of the contexts together.

Main statement: for every accepted set of rules the loop ends, in one way only and after at most one round more than it adds
states; and what it ends with is closed. No window needs a carry state any more, so each state knows of every occurrence in
its windows whose focus it still holds back (`closing_ends`).
-/

namespace ReplaceRules

/-! ## The sides of the contexts -/

namespace RuleSet

/-- The length of the longest left side of the contexts that are matched. -/
def longestLeft (r : RuleSet) : Nat := (r.matchingContexts.map (·.left.length)).foldl max 0

/-- The length of the longest right side of the contexts that are matched. -/
def longestRight (r : RuleSet) : Nat := (r.matchingContexts.map (·.right.length)).foldl max 0

variable {r : RuleSet}

/-- No left side is longer than the longest one. -/
theorem length_left_le {c : Context} (h : c ∈ r.environments) : c.left.length ≤ r.longestLeft := by
  rcases mem_matchingContexts_or h with hc | rfl
  · exact (foldl_max_le_iff.mp (Nat.le_refl r.longestLeft)).2 _ (List.mem_map_of_mem hc)
  · exact Nat.zero_le _

theorem length_right_le {c : Context} (h : c ∈ r.environments) : c.right.length ≤ r.longestRight := by
  rcases mem_matchingContexts_or h with hc | rfl
  · exact (foldl_max_le_iff.mp (Nat.le_refl r.longestRight)).2 _ (List.mem_map_of_mem hc)
  · exact Nat.zero_le _

/-- The patterns of rules reach as far to the left as the contexts, and no farther. -/
theorem longestLeft_ofRules_le : (Patterns.ofRules r).longestLeft ≤ r.longestLeft := by
  refine foldl_max_le_iff.mpr ⟨Nat.zero_le _, ?_⟩
  intro n hn
  obtain ⟨p, hp, rfl⟩ := List.mem_map.mp hn
  obtain ⟨c, hc, q, _, rfl⟩ := Patterns.mem_toList_iff.mp hp
  exact length_left_le hc

/-- They reach as far to the right as the contexts, and no farther. -/
theorem longestRight_ofRules_le : (Patterns.ofRules r).longestRight ≤ r.longestRight := by
  refine foldl_max_le_iff.mpr ⟨Nat.zero_le _, ?_⟩
  intro n hn
  obtain ⟨p, hp, rfl⟩ := List.mem_map.mp hn
  obtain ⟨c, hc, q, _, rfl⟩ := Patterns.mem_toList_iff.mp hp
  have hr := length_right_le hc
  simp only [Pattern.ofPair, List.length_append, List.length_cons]
  omega

end RuleSet

namespace StateSet

/-- The loop that adds carry states, with the number of its rounds: round follows round until one adds nothing. -/
inductive Rounds (ps : Patterns) (a : Alphabet) : Nat → StateSet → StateSet → Prop where
  | last {q : StateSet} (h : (q.addCarries ps a).size = q.size) : Rounds ps a 1 q (q.addCarries ps a)
  | next {n : Nat} {q q' : StateSet} (h : (q.addCarries ps a).size ≠ q.size) (later : Rounds ps a n (q.addCarries ps a) q') :
      Rounds ps a (n + 1) q q'

/-- The state that a window leads to knows of every occurrence in the window whose focus it still holds back: an occurrence with
that focus lies inside its path. -/
def Retains (q : StateSet) (ps : Patterns) (window : List Symbol) : Prop :=
  ∃ before, window = before ++ (q.state (q.longestSuffix window)).path ∧
    ∀ n, (q.state (q.longestSuffix window)).written ≤ n → ps.Occurs window (before.length + n) →
      ps.Occurs (q.state (q.longestSuffix window)).path n

variable {q q' : StateSet} {ps : Patterns} {a : Alphabet}

/-- The loop can end in one way only. -/
theorem Rounds.unique {n m : Nat} {q'' : StateSet} (h : Rounds ps a n q q') (h' : Rounds ps a m q q'') : m = n ∧ q'' = q' := by
  induction h generalizing m with
  | last hs =>
    cases h' with
    | last => exact ⟨rfl, rfl⟩
    | next hne => exact absurd hs hne
  | next hne _ ih =>
    cases h' with
    | last hs => exact absurd hs hne
    | next _ later =>
      obtain ⟨hm, hq⟩ := ih later
      exact ⟨by rw [hm], hq⟩

/-- A round keeps the invariant. -/
theorem Tracks.addCarries (ht : q.Tracks ps) (a : Alphabet) : (q.addCarries ps a).Tracks ps :=
  (Grows.start.addCarries : Grows ps a q _).tracks ht

theorem size_le_size_addCarries (q : StateSet) (ps : Patterns) (a : Alphabet) : q.size ≤ (q.addCarries ps a).size :=
  size_le_of_prefix (Grows.start.addCarries : Grows ps a q _).prefix_states

/-- What the loop ends with is closed. -/
theorem Rounds.closed {n : Nat} (h : Rounds ps a n q q') (ht : q.Tracks ps) : q'.Closed ps a := by
  induction h with
  | last hs =>
    have hc := ht.closed_of_size_eq hs
    rw [hc.addCarries_eq]
    exact hc
  | next _ _ ih => exact ih (ht.addCarries a)

/-- Each round but the last adds a state. -/
theorem Rounds.le_size {n : Nat} (h : Rounds ps a n q q') : n + q.size ≤ q'.size + 1 := by
  induction h with
  | last hs => omega
  | @next n q _ hne _ ih =>
    have hle := size_le_size_addCarries q ps a
    omega

/-- The loop ends: the states that a round adds are among the finitely many that there can be. -/
theorem Tracks.exists_rounds (ht : q.Tracks ps) (ha : a.Knows ps) : ∃ n q', Rounds ps a n q q' := by
  induction hleft : ps.closingRounds a - q.size using Nat.strongRecOn generalizing q with
  | _ left ih =>
    by_cases hs : (q.addCarries ps a).size = q.size
    · exact ⟨1, _, .last hs⟩
    · have hle := size_le_size_addCarries q ps a
      have hlt := (ht.addCarries a).size_lt ha
      obtain ⟨n, q', h⟩ := ih _ (by omega) (ht.addCarries a) rfl
      exact ⟨n + 1, q', .next hs h⟩

/-- As many rounds as the loop takes, or more, give what it ends with. -/
theorem Rounds.closeWithin_eq {n : Nat} (h : Rounds ps a n q q') (ht : q.Tracks ps) (more : Nat) :
    closeWithin ps a (n + more) q = q' := by
  induction h with
  | last hs =>
    have hc := ht.closed_of_size_eq hs
    rw [hc.addCarries_eq]
    exact hc.closeWithin_eq _
  | next hne _ ih =>
    rw [Nat.add_right_comm, closeWithin, if_neg hne]
    exact ih (ht.addCarries a)

/-- The closing is what the loop ends with. -/
theorem Rounds.close_eq {n : Nat} (h : Rounds ps a n q q') (ht : q.Tracks ps) (ha : a.Knows ps) : q.close ps a = q' := by
  rw [← ht.closeWithin_eq_close ha (Nat.le_add_left _ n)]
  exact h.closeWithin_eq ht _

/-- In a closed set the windows of all states and symbols are retained. -/
theorem Closed.retains (hc : q.Closed ps a) (ht : q.Tracks ps) {s : State} (hs : s ∈ q.states) {x : Symbol}
    (hx : x ∈ a.symbols) : q.Retains ps (s.path ++ [x]) := by
  obtain ⟨before, hb⟩ := ht.exists_window_eq (s.path ++ [x])
  refine ⟨before, hb, ?_⟩
  intro n hn ho
  rw [ht.written_state (ht.longestSuffix_lt _)] at hn
  exact hc.occurs_of_window ht (List.mem_map_of_mem hs) hx hb hn ho

end StateSet

namespace Construction

/-- For an accepted set of rules the loop that adds carry states to the states along the environments ends, in one way only and
after at most one round more than it adds states. It ends with the states of the machine; no window of these needs a carry
state; the state that a window leads to knows of every occurrence whose focus it holds back; and no path is longer than the
longest left side and the longest right side of the contexts together. -/
theorem closing_ends {r : RuleSet} (h : r.Accepted) :
    ∃ n q, StateSet.Rounds (.ofRules r) (ofRules r).alphabet n (.ofRules r) q ∧
      (∀ m q', StateSet.Rounds (.ofRules r) (ofRules r).alphabet m (.ofRules r) q' → m = n ∧ q' = q) ∧
      n + (StateSet.ofRules r).size ≤ q.size + 1 ∧
      (ofRules r).states = q ∧
      ∀ s ∈ q.states, s.path.length ≤ r.longestLeft + r.longestRight ∧
        ∀ x ∈ (ofRules r).alphabet.symbols,
          q.carryStart? (.ofRules r) (s.path ++ [x]) (q.longestSuffix (s.path ++ [x])) = none ∧
            q.Retains (.ofRules r) (s.path ++ [x]) := by
  have hne := h.valid.pairs_ne_nil
  have ht := StateSet.tracks_ofRules hne
  have ha := knows_alphabet r
  have hstates := states_eq r
  have htracks := tracks_states hne
  obtain ⟨n, q, hrounds⟩ := ht.exists_rounds ha
  rw [hrounds.close_eq ht ha] at hstates
  rw [hstates] at htracks
  have hc := hrounds.closed ht
  refine ⟨n, q, hrounds, fun m q' => hrounds.unique, hrounds.le_size, hstates, ?_⟩
  intro s hs
  refine ⟨?_, fun x hx => ⟨hc s hs x hx, hc.retains htracks hs hx⟩⟩
  calc s.path.length
    _ ≤ (Patterns.ofRules r).longestLeft + (Patterns.ofRules r).longestRight :=
        Patterns.length_le_of_path (htracks.paths_of s.path (List.mem_map_of_mem hs))
    _ ≤ r.longestLeft + r.longestRight := Nat.add_le_add RuleSet.longestLeft_ofRules_le RuleSet.longestRight_ofRules_le

/-- There is one carry state to add, so a second round ends the loop. Its path is as long as the bound allows but one. -/
theorem closing_ends_overlapping :
    ∃ q, StateSet.Rounds (.ofRules .overlapping) (ofRules .overlapping).alphabet 2 (.ofRules .overlapping) q ∧
      (StateSet.ofRules .overlapping).size = 13 ∧ q.size = 14 ∧
      (q.state 13).path = [⟨"y"⟩, ⟨"z"⟩, ⟨"a"⟩, ⟨"b"⟩, ⟨"d"⟩] ∧
      q.Retains (.ofRules .overlapping) [⟨"y"⟩, ⟨"z"⟩, ⟨"a"⟩, ⟨"b"⟩, ⟨"d"⟩] := by
  obtain ⟨n, q, _, hunique, _, hstates, hall⟩ := closing_ends RuleSet.accepted_overlapping
  have hrounds : StateSet.Rounds (.ofRules .overlapping) (ofRules .overlapping).alphabet 2 (.ofRules .overlapping) _ :=
    .next (by decide +kernel) (.last (by decide +kernel))
  obtain ⟨rfl, rfl⟩ := hunique _ _ hrounds
  refine ⟨_, hrounds, by decide +kernel, by decide +kernel, by decide +kernel, ?_⟩
  exact ((hall ⟨[⟨"y"⟩, ⟨"z"⟩, ⟨"a"⟩, ⟨"b"⟩], 2⟩ (by decide +kernel)).2 ⟨"d"⟩ (by decide +kernel)).2

end Construction

end ReplaceRules
