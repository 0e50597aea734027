import TrieDispatch.Proofs.Compiling
import TrieDispatch.Proofs.Program.Peaks

/-! # The recorded depth -/

namespace TrieDispatch

open Program

theorem Forest.exists_name {forest : Forest} (ended : forest.Ended)
    (nonempty : forest.isNil = false) : ∃ name, name ∈ forest.names := by
  induction forest with
  | nil => cases nonempty
  | cons label id name children siblings below _ =>
    obtain ⟨goesOn, lowerEnded, -⟩ := ended
    cases name with
    | some name => exact ⟨name, by simp [names]⟩
    | none =>
      obtain ⟨name, member⟩ := below lowerEnded <| by
        by_contra empty
        exact goesOn rfl (eq_nil_of_isNil (Bool.of_not_eq_false empty))
      exact ⟨name, by simp [names, member]⟩

section

variable {handlers : List Handler} {directory : Directory} {trie : Trie} {emission : Emission}
  {depth : Nat} (stages : Stages handlers directory trie emission depth)

include stages

theorem Stages.isNil_eq_false_iff : trie.branches.isNil = false ↔ handlers ≠ [] := by
  constructor
  · rintro nonempty rfl
    obtain ⟨name, member⟩ := Forest.exists_name stages.holds.ended nonempty
    cases (stages.holds.mem_iff name).1 member
  · intro nonempty
    obtain ⟨handler, registered⟩ := List.exists_mem_of_ne_nil handlers nonempty
    have member := (stages.holds.mem_iff _).2 (List.mem_map_of_mem registered)
    by_contra empty
    rw [Forest.eq_nil_of_isNil (Bool.of_not_eq_false empty)] at member
    cases member

theorem Stages.forall_entry_iff (holds : Handler → Prop) :
    (∀ name ∈ trie.branches.names, ∀ entry, directory.located? name = some entry →
      holds entry.2) ↔ ∀ handler ∈ handlers, holds handler := by
  constructor
  · intro all handler registered
    have member := (stages.holds.mem_iff _).2 (List.mem_map_of_mem registered)
    obtain ⟨position, found⟩ := List.mem_iff_getElem?.1 registered
    have found : directory.handlers[position]? = some handler := by
      rw [stages.handlers_eq, List.getElem?_toArray, found]
    exact all handler.name member _ (stages.coherent.located?_eq found)
  · intro all name _ entry known
    have registered := Array.mem_of_getElem? (Directory.located?_eq_some known).2
    rw [stages.handlers_eq, List.mem_toArray] at registered
    exact all entry.2 registered

theorem Stages.depth_le_iff (bound : Nat) :
    depth ≤ bound ↔ 1 ≤ bound ∧ (handlers ≠ [] → 2 ≤ bound) ∧
      ∀ handler ∈ handlers, handler.arity + 1 ≤ bound := by
  have same := (Forest.maxDepth_program stages.callable trie.branches).symm.trans stages.depth_eq
  rw [← Except.ok.inj same, Forest.peak_program_le_iff stages.callable, stages.isNil_eq_false_iff,
    stages.forall_entry_iff fun handler => handler.arity + 1 ≤ bound]

end

/-- The recorded depth is one for no handlers, and otherwise two or one more than the largest number
of parameters, whichever is larger. -/
theorem recorded_depth {point : HookPoint} {handlers : List Handler} {settings : CompilerSettings}
    {routine : Routine} (compiled : compile point handlers settings = .ok routine) :
    routine.maxDepth = match (handlers.map Handler.arity).max? with
      | none => 1
      | some widest => max 2 (1 + widest) := by
  obtain ⟨trie, emission, depth, encoding, stages, -, rfl⟩ := stages_of_compile compiled
  refine eq_of_forall_ge_iff fun bound => (stages.depth_le_iff bound).trans ?_
  cases widest : (handlers.map Handler.arity).max? with
  | none =>
    obtain rfl := List.map_eq_nil_iff.1 (List.max?_eq_none_iff.1 widest)
    simp
  | some widest =>
    obtain ⟨attained, most⟩ := List.max?_eq_some_iff.1 widest
    obtain ⟨handler, registered, rfl⟩ := List.mem_map.1 attained
    constructor
    · rintro ⟨-, two, calls⟩
      have call := calls handler registered
      exact Nat.max_le.2 ⟨two (List.ne_nil_of_mem registered), by omega⟩
    · intro enough
      obtain ⟨two, call⟩ := Nat.max_le.1 enough
      refine ⟨Nat.le_of_succ_le two, fun _ => two, fun other registered => ?_⟩
      have := most _ (List.mem_map_of_mem registered)
      omega

private def clocks : List Handler :=
  [⟨"s", [.long, .long], fun _ => none⟩, ⟨"st", [], fun _ => none⟩]

theorem recorded_depth_clocks :
    ∃ routine, compile .standard clocks default = .ok routine ∧ routine.maxDepth = 3 := by
  have accepted : (match compile .standard clocks default with
      | .ok _ => true
      | .error _ => false) = true := by
    decide +kernel
  cases compiled : compile .standard clocks default with
  | error error =>
    rw [compiled] at accepted
    cases accepted
  | ok routine => exact ⟨routine, rfl, recorded_depth compiled⟩

end TrieDispatch
