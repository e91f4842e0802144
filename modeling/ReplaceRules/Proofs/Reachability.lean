import ReplaceRules.Proofs.Runs

/-!
# Every state is reached

A carry state is added because of one window. A state that is added later can be a longer ending of that window and take over the
move for which the first one was made. Nothing is orphaned by that: in a closed set the path of a state is itself a text that
leads to the state, whatever other moves there are.

The paths of a closed set are closed under prefixes, so they form a tree, and a run along a path goes down the tree from the
root (`Realizes.path_reach_of_prefix`). Main statement: in the machine of an accepted set of rules every state is reached by
reading its path, and by no text that does not end with its path (`compile_reachable`).
-/

namespace ReplaceRules

namespace Transducer

variable {t : Transducer} {ps : Patterns} {id : Nat}

/-- A run along the path of a state is, after each symbol, in the state whose path is what was read. -/
theorem Realizes.path_reach_of_prefix (h : t.Realizes ps) (hid : id < t.states.size) {text : List Symbol}
    (hp : text <+: (t.states.state id).path) : (t.states.state (t.reach 0 text)).path = text := by
  have hm := h.closed.mem_of_prefix h.tracks h.knows (t.states.path_mem_paths hid) hp
  obtain ⟨found, hf⟩ := StateSet.exists_find?_of_mem hm
  rw [h.reach_eq, h.tracks.longestSuffix_of_find? hf, StateSet.path_state_of_find? hf]

/-- The path of a state leads to the state. -/
theorem Realizes.reach_path (h : t.Realizes ps) (hid : id < t.states.size) : t.reach 0 (t.states.state id).path = id :=
  h.tracks.eq_of_path_eq (h.reach_lt _) hid (h.path_reach_of_prefix hid (List.prefix_refl _))

/-- A text that leads to a state ends with its path. -/
theorem Realizes.path_suffix_of_reach (h : t.Realizes ps) {text : List Symbol} (hr : t.reach 0 text = id) :
    (t.states.state id).path <:+ text := by
  rw [← hr, h.reach_eq]
  exact h.tracks.path_longestSuffix_suffix text

/-- Every state of the machine of an accepted set of rules, on the way along an environment or a carry state, is reached from the
start by symbols of the alphabet, namely by its path. The run there goes through the states of the prefixes of the path, and
every other text that leads to the state ends with the path. -/
theorem compile_reachable {r : RuleSet} (h : r.Accepted) :
    ∃ t, compile r = .ok t ∧ ∀ id < t.states.size,
      (∀ x ∈ (t.states.state id).path, x ∈ t.alphabet.symbols) ∧
      t.reach 0 (t.states.state id).path = id ∧
      (∀ text, text <+: (t.states.state id).path → (t.states.state (t.reach 0 text)).path = text) ∧
      ∀ text, t.reach 0 text = id → (t.states.state id).path <:+ text := by
  refine ⟨_, compile_eq_ok h.valid.pairs_ne_nil, ?_⟩
  have hr := realizes_ofConstruction h.valid
  generalize ofConstruction r (.ofRules r) = t at hr
  intro id hid
  refine ⟨fun x hx => ?_, hr.reach_path hid, fun text => hr.path_reach_of_prefix hid, fun text => hr.path_suffix_of_reach⟩
  exact hr.tracks.mem_symbols hr.knows (t.states.path_mem_paths hid) hx

/-- The carry state is reached through `y z a b`, the state for whose window it was made. -/
theorem compile_reachable_overlapping :
    ∃ t, compile .overlapping = .ok t ∧ 13 < t.states.size ∧
      t.reach 0 [⟨"y"⟩, ⟨"z"⟩, ⟨"a"⟩, ⟨"b"⟩, ⟨"d"⟩] = 13 ∧ t.reach 0 [⟨"y"⟩, ⟨"z"⟩, ⟨"a"⟩, ⟨"b"⟩] = 5 := by
  obtain ⟨t, hc, hreach⟩ := compile_reachable RuleSet.accepted_overlapping
  obtain rfl := eq_overlapping_of_compile hc
  have hsize : 13 < overlapping.states.size := by simp [size_states_overlapping]
  have hcarry : (overlapping.states.state 13).path = [⟨"y"⟩, ⟨"z"⟩, ⟨"a"⟩, ⟨"b"⟩, ⟨"d"⟩] :=
    congrArg State.path state_last_overlapping
  have hbefore : (overlapping.states.state 5).path = [⟨"y"⟩, ⟨"z"⟩, ⟨"a"⟩, ⟨"b"⟩] := by decide +kernel
  refine ⟨_, hc, hsize, ?_, ?_⟩
  · rw [← hcarry]
    exact (hreach 13 hsize).2.1
  · rw [← hbefore]
    exact (hreach 5 (by omega)).2.1

end Transducer

end ReplaceRules
