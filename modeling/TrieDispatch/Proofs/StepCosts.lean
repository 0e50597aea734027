import TrieDispatch.Proofs.Equivalence
import TrieDispatch.Proofs.Program.Storing
import TrieDispatch.Proofs.Trie.Siblings

/-! # What a call costs -/

namespace TrieDispatch

open Machine Program

open Trie (child? nameOf childrenOf siblingsOf Linked)

namespace Trie

/-- The nodes to which the characters lead one after the other, as far as there are edges. -/
def way (nodes : Array Node) (id : Nat) : List Char → List Nat
  | [] => []
  | label :: rest =>
    match child? nodes id label with
    | none => []
    | some next => next :: way nodes next rest

/-- The steps until the node has matched its character and the walk goes on below it. -/
def matchSteps (nodes : Array Node) (id : Nat) : Nat :=
  5 * (siblingsOf nodes id).idxOf id + 9 + if (nameOf nodes id).isSome then 3 else 0

end Trie

open Trie (way matchSteps)

/-- The steps of a call with the key: the prologue, the nodes on its way, and the call of its
handler or the comparisons that fail in the end. -/
def callSteps (handlers : List Handler) (nodes : Array Trie.Node) (key : String) : Nat :=
  let way := way nodes 0 key.toList
  6 + (way.map (matchSteps nodes)).sum +
    match handlers.find? fun handler => handler.name == key with
    | some handler => 4 * handler.arity + 4
    | none => 5 * (childrenOf nodes (way.getLastD 0)).length + 2

/-! ## Counting steps -/

theorem Machine.lenient_sameSteps : Lenient fun frame next => next.steps = frame.steps where
  refl _ := rfl
  trans h h' := h'.trans h
  ip _ _ := rfl
  pop _ := rfl
  stack _ _ := rfl
  slot _ _ _ := rfl
  out _ _ := rfl
  call _ _ := rfl

namespace Program

variable {program : Program} {forms : Array Opcode} {job : Job}

theorem steps_of_step (lowered : Lowered program forms) {frame next : Frame}
    {answer : Option Bool} (taken : program.step job frame = .ok answer next) :
    next.steps = frame.steps + 1 := by
  have inside : frame.ip < program.size := by
    by_contra outside
    rw [step_of_outside (Nat.le_of_not_lt outside)] at taken
    cases taken
  obtain ⟨instr, opcode, present, -, formOf⟩ := lowered.exists_form inside
  have kept := lenient_perform lenient_sameSteps formOf job
    { frame with ip := frame.ip + 1, steps := frame.steps + 1 }
  rwa [← step_of_instr present, taken] at kept

theorem steps_of_frameAfter (lowered : Lowered program forms) {first last : Frame} {count : Nat}
    (h : frameAfter (program.step job) count first = some last) :
    last.steps = first.steps + count := by
  induction count generalizing first with
  | zero =>
    obtain rfl := Option.some.inj h
    rfl
  | succ count ih =>
    obtain ⟨next, taken, rest⟩ := frameAfter_succ_eq_some_iff.1 h
    rw [ih rest, steps_of_step lowered taken]
    omega

end Program

/-! ## The way of the key in the table -/

namespace Forest

variable {nodes : Array Trie.Node} {parent id : Nat} {above : Trie.Node}
  {before : List (Char × Nat)} {forest children siblings : Forest} {label : Char}
  {stored : Option String} {directory : Directory}

/-- The steps from the end of the way on, without the answer. -/
def endSteps (directory : Directory) (nodes : Array Trie.Node) (last : Nat) :
    Option String → Nat
  | some name => (directory.located? name).elim 0 fun entry => 4 * entry.2.arity + 2
  | none => 5 * (childrenOf nodes last).length

theorem Lodged.child?_eq_none (h : nil.Lodged nodes parent above before) {c : Char}
    (fresh : ∀ edge ∈ before, edge.1 ≠ c) : child? nodes parent c = none := by
  rw [h.child?_eq fresh, edges, List.lookup_nil]

theorem nameSteps_eq (linked : Linked nodes)
    (h : (cons label id stored children siblings).Lodged nodes parent above before)
    (known : ∀ name, stored = some name → (directory.located? name).isSome) {rest : List Char}
    (onward : children.walkSteps directory rest =
      ((way nodes id rest).map (matchSteps nodes)).sum +
        endSteps directory nodes ((way nodes id rest).getLastD id) (children.nameAt rest)) :
    5 * before.length + (9 + nameSteps directory stored rest (children.walkSteps directory rest)) =
      matchSteps nodes id + (((way nodes id rest).map (matchSteps nodes)).sum +
        endSteps directory nodes ((way nodes id rest).getLastD id)
          (if rest = [] then stored else children.nameAt rest)) := by
  rw [matchSteps, h.idxOf_siblingsOf linked, nameOf_eq h.row]
  cases stored with
  | none =>
    have same : (if rest = [] then none else children.nameAt rest) = children.nameAt rest := by
      split
      next empty => rw [empty, nameAt_empty]
      next => rfl
    rw [same, nameSteps, Option.bind_none, onward]
    simp only [Option.isSome_none, Bool.false_eq_true, if_false]
    omega
  | some name =>
    obtain ⟨⟨position, handler⟩, entry⟩ := Option.isSome_iff_exists.1 (known name rfl)
    simp only [nameSteps, Option.bind_some, entry, Option.isSome_some, if_true]
    by_cases last : rest = []
    · subst last
      simp only [if_true, way, List.map_nil, List.sum_nil, endSteps, entry, Option.elim_some]
      omega
    · rw [if_neg last, if_neg last, onward]
      omega

theorem Lodged.walkSteps_eq (linked : Linked nodes)
    (h : forest.Lodged nodes parent above before)
    (known : ∀ name ∈ forest.names, (directory.located? name).isSome) (key : List Char)
    (fresh : ∀ edge ∈ before, key.head? ≠ some edge.1) :
    5 * before.length + forest.walkSteps directory key =
      ((way nodes parent key).map (matchSteps nodes)).sum +
        endSteps directory nodes ((way nodes parent key).getLastD parent) (forest.nameAt key) := by
  induction forest generalizing parent above before key with
  | nil =>
    have ends : way nodes parent key = [] := by
      cases key with
      | nil => rfl
      | cons c rest =>
        rw [way, h.child?_eq_none fun edge member same => fresh edge member (same ▸ rfl)]
    rw [ends, List.map_nil, List.sum_nil, List.getLastD_nil, nameAt_nil, endSteps, h.childrenOf_eq,
      walkSteps, tops, edges, List.map_nil, List.append_nil, List.length_map]
    omega
  | cons label id stored children siblings below beside =>
    rw [names, List.forall_mem_append, List.forall_mem_append] at known
    obtain ⟨own, known, known'⟩ := known
    -- A failed comparison costs five steps, as do those with the siblings before.
    have passed (differs : key.head? ≠ some label) := beside h.beside known' key
      (List.forall_mem_append.2 ⟨fresh, List.forall_mem_singleton.2 differs⟩)
    rw [List.length_append, List.length_singleton] at passed
    cases key with
    | nil =>
      have passed := passed (by rintro ⟨⟩)
      rw [nameAt_empty] at passed ⊢
      rw [walkSteps, ← passed]
      omega
    | cons c rest =>
      rw [nameAt_cons, walkSteps]
      by_cases same : c = label
      · subst same
        have onward := below h.below known rest (List.forall_mem_nil _)
        rw [List.length_nil, Nat.mul_zero, Nat.zero_add] at onward
        have next : child? nodes parent c = some id :=
          h.child?_cons fun edge member same => fresh edge member (same ▸ rfl)
        rw [if_pos rfl, if_pos rfl, way, next]
        simp only [List.map_cons, List.sum_cons, List.getLastD_cons]
        rw [Nat.add_assoc]
        exact nameSteps_eq linked h (fun name stored => own name (by simp [stored])) onward
      · have passed := passed (by simpa using same)
        rw [if_neg same, if_neg (Ne.symm same), ← passed]
        omega

end Forest

section

variable {handlers : List Handler} {directory : Directory} {trie : Trie} {emission : Emission}
  {depth : Nat}

theorem Stages.endSteps_eq (stages : Stages handlers directory trie emission depth)
    (key : String) (last : Nat) :
    Forest.endSteps directory trie.nodes last (trie.branches.nameAt key.toList) + 2 =
      match handlers.find? fun handler => handler.name == key with
      | some handler => 4 * handler.arity + 4
      | none => 5 * (childrenOf trie.nodes last).length + 2 := by
  cases found : handlers.find? fun handler => handler.name == key with
  | some handler =>
    have member := List.mem_of_find?_eq_some found
    have named := List.find?_some found
    obtain rfl : handler.name = key := eq_of_beq named
    have ends := (stages.holds.nameAt_iff _ _).2 ⟨List.mem_map_of_mem member, rfl⟩
    obtain ⟨position, present⟩ := List.mem_iff_getElem?.1 member
    have entry : directory.located? handler.name = some (position, handler) :=
      stages.coherent.located?_eq (by rw [stages.handlers_eq, List.getElem?_toArray, present])
    rw [ends, Forest.endSteps, entry, Option.elim_some]
  | none =>
    have misses : trie.branches.nameAt key.toList = none := by
      apply Option.eq_none_iff_forall_ne_some.2
      intro name ends
      obtain ⟨held, same⟩ := (stages.holds.nameAt_iff _ _).1 ends
      obtain ⟨handler, member, rfl⟩ := List.mem_map.1 held
      exact List.find?_eq_none.1 found handler member (beq_iff_eq.2 (String.toList_inj.1 same))
    rw [misses, Forest.endSteps]

theorem Stages.callSteps_eq (stages : Stages handlers directory trie emission depth)
    (key : String) : callSteps handlers trie.nodes key =
      prologue.length + trie.branches.walkSteps directory key.toList + 2 := by
  have tabled := Trie.tabled_ofNames stages.trie_eq
  have walked := tabled.represents.lodged.walkSteps_eq tabled.linked stages.known key.toList
    (List.forall_mem_nil _)
  rw [List.length_nil, Nat.mul_zero, Nat.zero_add] at walked
  rw [callSteps, ← stages.endSteps_eq, walked]
  simp only [prologue, List.length_cons, List.length_nil]
  omega

end

/-- A call of a compiled routine takes a number of steps that the table of its names tells, whatever
the arguments, the output before and the stack limit. With fewer steps allowed it is cut off after
them, and otherwise it returns. -/
theorem compiled_call_steps {point : HookPoint} {handlers : List Handler}
    {settings : CompilerSettings} {routine : Routine}
    (compiled : compile point handlers settings = .ok routine) :
    ∃ trie, Trie.ofNames (handlers.map Handler.name) = .ok trie ∧
      ∀ (machine : MachineSettings) (key : String) (out : Option Value) (args : List Value),
        let steps := callSteps handlers trie.nodes key
        let ran := Machine.run routine machine key out args
        (ran.1 = .error (.stepLimit machine.maxSteps) ↔ machine.maxSteps < steps) ∧
        (steps ≤ machine.maxSteps → ∃ found, ran.1 = .ok found) ∧
        ran.2.steps = min machine.maxSteps steps := by
  obtain ⟨trie, emission, depth, encoding, stages, encoded, rfl⟩ := stages_of_compile compiled
  refine ⟨trie, stages.trie_eq, ?_⟩
  intro machine key out args steps ran
  obtain ⟨forms, settled, -⟩ := place_of_encode encoded
  have lowered := settled.toLowered
  have ends := stages.run_eq out encoded point machine key args
  rw [stages.handlers_eq] at ends
  obtain ⟨job, count, last, final, found, same, reached, taken, -, total, -⟩ := ends
  rw [← stages.callSteps_eq, steps_of_step lowered taken, steps_of_frameAfter lowered reached,
    Frame.start, Nat.zero_add] at total
  have total : count + 1 = steps := total
  have same : ran = _ := same
  rw [same, ← total]
  rcases Nat.lt_or_ge count machine.maxSteps with enough | few
  · rw [Program.run, loop_of_frameAfter_ok reached taken enough]
    refine ⟨iff_of_false (by rintro ⟨⟩) (Nat.not_lt.2 enough), fun _ => ⟨found, rfl⟩, ?_⟩
    show final.steps = _
    rw [steps_of_step lowered taken, steps_of_frameAfter lowered reached, Frame.start,
      Nat.min_eq_right enough, Nat.zero_add]
  · obtain ⟨cut, reached', stopped⟩ := loop_of_frameAfter_le reached few
    rw [Program.run, stopped]
    refine ⟨iff_of_true rfl (Nat.lt_succ_of_le few), fun enough => ?_, ?_⟩
    · exact absurd enough (Nat.not_le_of_lt (Nat.lt_succ_of_le few))
    · show cut.steps = _
      rw [steps_of_frameAfter lowered reached', Frame.start,
        Nat.min_eq_left (Nat.le_succ_of_le few), Nat.zero_add]

private def answers : List Handler :=
  [⟨"y", [], fun _ => none⟩, ⟨"no", [.long], fun args => args[0]?⟩]

theorem compiled_call_steps_answers :
    ∃ routine, compile .standard answers default = .ok routine ∧
      (Machine.run routine ⟨0, 39, false⟩ "no" none []).1 = .error (.stepLimit 39) ∧
      (Machine.run routine ⟨0, 100, false⟩ "no" none []).2.steps = 40 := by
  have accepted : (match compile .standard answers default with
      | .ok _ => true
      | .error _ => false) = true := by
    decide +kernel
  have counted : (match Trie.ofNames (answers.map Handler.name) with
      | .ok trie => callSteps answers trie.nodes "no"
      | .error _ => 0) = 40 := by
    decide +kernel
  cases compiled : compile .standard answers default with
  | error error =>
    rw [compiled] at accepted
    cases accepted
  | ok routine =>
    obtain ⟨trie, built, costs⟩ := compiled_call_steps compiled
    simp only [built] at counted
    obtain ⟨cut, -⟩ := costs ⟨0, 39, false⟩ "no" none []
    obtain ⟨-, -, taken⟩ := costs ⟨0, 100, false⟩ "no" none []
    refine ⟨routine, rfl, cut.2 (by rw [counted]; decide), taken.trans ?_⟩
    rw [counted]
    rfl

end TrieDispatch
