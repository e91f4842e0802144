import ReplaceRules.Proofs.Online

/-!
# What a transition releases

A transition leads from a window, the path of its source with the symbol that is read, to a path that may be much shorter. What
it writes is decided by two numbers that were found apart: the source counted what its own path had released, and the target
counts what its own path holds back. `Transition.Releases` says that the two numbers fit. What the target holds back is what the
whole window holds back, so a shorter path forgets no partial match; and nothing is released that was released before.

Main statement: in the machine of an accepted set of rules every transition releases exactly what has become final, whether its
source is ever reached or not (`compile_releases`).
-/

namespace ReplaceRules

/-- A transition on a window releases what has become final. `released` is the number of symbols at the start of the window that
were released before. -/
structure Transition.Releases (ps : Patterns) (q : StateSet) (released : Nat) (window : List Symbol) (t : Transition) : Prop where
  target_eq : t.target = q.longestSuffix window
  /-- The target does not hold back more than the window. -/
  pending_le : (q.state t.target).pending.length ≤ window.length
  /-- The target holds back the end of the window. -/
  pending_eq : (q.state t.target).pending = window.drop (q.pendingStart window t.target)
  /-- Nothing is released twice. -/
  released_le : released ≤ q.pendingStart window t.target
  /-- As much is released as the whole window releases. -/
  pendingStart_eq : q.pendingStart window t.target = ps.written window
  /-- No symbol is released that a partial match of the window holds back, nor any behind it. -/
  needed : ∀ k, ps.HeldBack window k → q.pendingStart window t.target ≤ k
  /-- The first symbol that is not released is held back by a partial match of the window. -/
  kept : q.pendingStart window t.target < window.length → ps.HeldBack window (q.pendingStart window t.target)
  /-- The symbols that are released are written as what becomes of them, however the window goes on. -/
  output_eq : ∀ more, t.output = ((ps.replaceAll (window ++ more)).take (q.pendingStart window t.target)).drop released

variable {q : StateSet} {ps : Patterns}

/-- A fallback edge releases what has become final. -/
theorem Edge.releases_fallback (ht : q.Tracks ps) {source : Nat} (hs : source < q.size) (x : Symbol) :
    (Edge.fallback ps q source x).transition.Releases ps q (q.state source).written ((q.state source).path ++ [x]) := by
  have htarget : (Edge.fallback ps q source x).transition.target = q.longestSuffix ((q.state source).path ++ [x]) := rfl
  have hstart : q.pendingStart ((q.state source).path ++ [x]) (Edge.fallback ps q source x).transition.target =
      ps.written ((q.state source).path ++ [x]) := ht.pendingStart_eq_written _
  have hpending : (q.state (Edge.fallback ps q source x).transition.target).pending =
      ((q.state source).path ++ [x]).drop (ps.written ((q.state source).path ++ [x])) := ht.pending_longestSuffix _
  have houtput : (Edge.fallback ps q source x).transition.output =
      ((ps.replaceAll ((q.state source).path ++ [x])).take
        (q.pendingStart ((q.state source).path ++ [x]) (Edge.fallback ps q source x).transition.target)).drop
          (q.state source).written := ps.settle_output _ _ _
  have hstep := Patterns.written_le_written_concat ps (q.state source).path x
  rw [← ht.written_state hs] at hstep
  generalize (q.state source).path ++ [x] = window at *
  generalize (Edge.fallback ps q source x).transition = t at *
  refine ⟨htarget, ?_, ?_, ?_, hstart, ?_, ?_, ?_⟩
  · rw [hpending, List.length_drop]
    exact Nat.sub_le _ _
  · rw [hstart, hpending]
  · rw [hstart]
    exact hstep
  · intro k hk
    rw [hstart]
    exact hk.written_le
  · intro hlt
    rw [hstart] at hlt ⊢
    exact Patterns.heldBack_written hlt
  · intro more
    rw [houtput, hstart, Patterns.take_written_replaceAll_append]

namespace Transducer

/-- In the machine of an accepted set of rules the transition for each state, reachable or not, and each symbol of the alphabet
releases exactly what has become final. -/
theorem compile_releases {r : RuleSet} (h : r.Accepted) :
    ∃ t, compile r = .ok t ∧ ∀ source < t.states.size, ∀ x ∈ t.alphabet.symbols, ∃ id,
      t.alphabet.find? x = some id ∧
        (t.table.get source id).Releases (.ofRules r) t.states (t.states.state source).written
          ((t.states.state source).path ++ [x]) := by
  refine ⟨_, compile_eq_ok h.valid.pairs_ne_nil, ?_⟩
  have hr := realizes_ofConstruction h.valid
  generalize ofConstruction r (.ofRules r) = t at hr
  intro source hs x hx
  obtain ⟨id, hid⟩ := Alphabet.exists_find?_of_mem hx
  refine ⟨id, hid, ?_⟩
  rw [hr.table_eq, Table.get_ofFallbacks hs (Alphabet.getElem?_of_find? hid)]
  exact Edge.releases_fallback hr.tracks hs x

/-- On `e` the carry state `y z a b d`, of which `y z` was released before, releases all the rest: both symbols that it held back
are replaced, and nothing that could still be replaced is behind them. -/
theorem compile_releases_overlapping :
    ∃ t id, compile .overlapping = .ok t ∧ t.alphabet.find? ⟨"e"⟩ = some id ∧
      (t.table.get 13 id).Releases (.ofRules .overlapping) t.states 2
        [⟨"y"⟩, ⟨"z"⟩, ⟨"a"⟩, ⟨"b"⟩, ⟨"d"⟩, ⟨"e"⟩] ∧
      (t.table.get 13 id).output = [⟨"A"⟩, ⟨"B"⟩, ⟨"d"⟩, ⟨"e"⟩] := by
  obtain ⟨t, hc, hall⟩ := compile_releases RuleSet.accepted_overlapping
  obtain rfl := eq_overlapping_of_compile hc
  have hs : 13 < overlapping.states.size := by simp [size_states_overlapping]
  have hx : (⟨"e"⟩ : Symbol) ∈ overlapping.alphabet.symbols := by decide +kernel
  obtain ⟨id, hid, hreleases⟩ := hall 13 hs ⟨"e"⟩ hx
  rw [state_last_overlapping] at hreleases
  refine ⟨_, id, hc, hid, hreleases, ?_⟩
  rw [hreleases.output_eq [], hreleases.pendingStart_eq]
  decide +kernel

end Transducer

end ReplaceRules
