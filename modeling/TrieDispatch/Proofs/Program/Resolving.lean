import TrieDispatch.Proofs.Program.AssemblySound
import TrieDispatch.Proofs.Program.Emitting

/-! # From emission to the assembled program -/

namespace TrieDispatch

open Program

namespace Forest

variable {directory : Directory} {forest : Forest} {instr : Instr}

theorem contains_program (directory : Directory) (forest : Forest) :
    (forest.program directory).Contains 0 (prologue ++ (forest.code directory
      (forest.codeEnd directory) prologue.length ++ answer false)) := contains_toArray _

theorem contains_code (directory : Directory) (forest : Forest) :
    (forest.program directory).Contains prologue.length
      (forest.code directory (forest.codeEnd directory) prologue.length) := by
  have contains := (contains_program directory forest).right.left
  rwa [Nat.zero_add] at contains

theorem contains_epilogue (directory : Directory) (forest : Forest) :
    (forest.program directory).Contains (forest.codeEnd directory) (answer false) := by
  have contains := (contains_program directory forest).right.right
  rwa [length_code, Nat.zero_add] at contains

theorem size_program (directory : Directory) (forest : Forest) :
    (forest.program directory).size = forest.codeEnd directory + 2 := by
  rw [program, List.size_toArray, List.length_append, List.length_append, length_code, codeEnd]
  rfl

theorem assembled_program {consts : Int → Prop} (zero : consts 0) (one : consts 1)
    (chars : ∀ c : Char, consts c.toNat)
    (indexes : ∀ {name position handler}, directory.located? name = some (position, handler) →
      ∀ index < handler.arity, consts index)
    (member : instr ∈ forest.program directory) :
    Assembled consts (forest.codeEnd directory) instr := by
  rw [program, List.mem_toArray] at member
  rcases List.mem_append.1 member with member | member
  · exact assembled_prologue zero instr member
  · rcases List.mem_append.1 member with member | member
    · exact assembled_code zero one chars indexes forest (Nat.le_refl _) instr member
    · exact assembled_answer zero one false instr member

theorem assembled_of_getElem? {position : Nat}
    (present : (forest.program directory)[position]? = some instr) :
    Assembled (fun _ => True) (forest.codeEnd directory) instr :=
  assembled_program trivial trivial (fun _ => trivial) (fun _ _ _ => trivial)
    (Array.mem_of_getElem? present)

theorem branchTo_of_branchNe {position : Nat}
    (present : (forest.program directory)[position]? = some instr) (branch : instr.op = .branchNe) :
    ∃ target, instr = .branchTo target := by
  cases assembled_of_getElem? present with
  | branchTo => exact ⟨_, rfl⟩
  | plain known =>
    rw [show (Instr.plain _).op = _ from rfl] at branch
    subst branch
    simp at known
  | _ => cases branch

theorem levelAt_start (directory : Directory) (forest : Forest) :
    (forest.program directory).levelAt directory.handlers prologue.length = some 0 := by
  have level := (contains_program directory forest).left.levelAt_of_climb levelAt_zero
    (climb_prologue directory.handlers)
  rwa [Nat.zero_add] at level

theorem levelAt_codeEnd (callable : directory.Callable) (forest : Forest) :
    (forest.program directory).levelAt directory.handlers (forest.codeEnd directory) = some 0 := by
  have level := (contains_code directory forest).levelAt_of_climb (levelAt_start directory forest)
    (climb_code callable forest _)
  rwa [length_code] at level

theorem goesOn_of_branchTo (callable : directory.Callable) {position target : Nat}
    (present : (forest.program directory)[position]? = some (.branchTo target)) :
    GoesOn directory (forest.codeEnd directory) (forest.program directory) position target := by
  have branches : Branches (GoesOn directory (forest.codeEnd directory) (forest.program directory))
      0 (prologue ++ (forest.code directory (forest.codeEnd directory) prologue.length ++
        answer false)) := by
    refine .append (branches_of_not_mem ?_) (.append ?_ (branches_of_not_mem ?_))
    · simp [prologue, Instr.plain, Instr.branchTo]
    · rw [Nat.zero_add]
      exact branches_code callable forest (contains_code directory forest)
        (levelAt_start directory forest) (levelAt_codeEnd callable forest) (Nat.le_refl _)
    · simp [answer, Instr.plain, Instr.branchTo]
  rw [program, List.getElem?_toArray] at present
  have goesOn := branches position target present
  rwa [Nat.zero_add] at goesOn

theorem level_program (callable : directory.Callable) (forest : Forest) :
    (forest.program directory).Level directory.handlers := by
  constructor
  · have level := (contains_epilogue directory forest).levelAt_of_climb
      (levelAt_codeEnd callable forest) (climb_answer directory.handlers false)
    rw [size_program]
    exact Option.isSome_of_eq_some level
  · intro position target present
    have goesOn := goesOn_of_branchTo callable present
    exact goesOn.after.trans goesOn.before.symm

theorem exists_maxDepth_program (callable : directory.Callable) (forest : Forest) :
    ∃ depth, (forest.program directory).maxDepth directory.handlers = .ok depth := by
  obtain ⟨survey, surveyed⟩ := exists_survey_of_level (level_program callable forest)
  exact ⟨survey.deepest, map_eq_ok_iff.2 ⟨survey, surveyed, rfl⟩⟩

theorem branchFault?_eq_none {position : Nat}
    (present : (forest.program directory)[position]? = some instr) :
    branchFault? (forest.program directory).size position instr = none := by
  cases assembled_of_getElem? present with
  | @branchTo target inside =>
    have less : target < (forest.program directory).size := by
      rw [size_program]
      omega
    exact if_pos less
  | _ => rfl

end Forest

namespace Emission

variable {directory : Directory} {trie : Trie} {emission : Emission}

/-- With every placeholder bound the emitted code is the assembled program. -/
theorem bound_of_ofTrie (h : ofTrie directory trie = .ok emission) :
    (∀ {position landing}, emission.placeholders[position]? = some landing →
      position < emission.code.size) ∧
      ∀ position : Nat, (trie.branches.program directory)[position]? =
        emission.code[position]?.map (emission.landings.bind emission.placeholders[position]?) := by
  obtain ⟨draft, emitted, done⟩ := bind_eq_ok_iff.1 h
  obtain rfl := Except.ok.inj done
  have emits := Draft.emits_of_emitForest emitted Draft.bounded_start
  let final := draft.append (answer false)
  let landings : LandingTable := ⟨draft.starts, draft.code.size⟩
  have bound := emits.bound landings id
  have codeEnd : draft.code.size = trie.branches.codeEnd directory := by
    have size := congrArg List.length bound
    rwa [List.length_append, Draft.length_bound, Draft.length_bound, Forest.length_code] at size
  have whole : final.bound landings = (trie.branches.program directory).toList := by
    rw [Draft.bound_append emits.bounded, bound, List.append_assoc, Draft.bound_start]
    show prologue ++ (trie.branches.code directory draft.code.size prologue.length ++ _) = _
    rw [codeEnd]
    rfl
  refine ⟨emits.bounded.append _ _ _, fun position => ?_⟩
  rw [← Array.getElem?_toList, ← whole, Draft.bound, List.getElem?_mapIdx, Array.getElem?_toList]
  rfl

theorem resolve_of_ofTrie (h : ofTrie directory trie = .ok emission) :
    emission.code.resolve emission.landings emission.placeholders =
      (trie.branches.program directory, .ok emission.placeholders.size) := by
  obtain ⟨inside, bound⟩ := bound_of_ofTrie h
  exact resolve_eq emission.landings inside bound fun _ _ present =>
    Forest.branchFault?_eq_none present

theorem exists_ofTrie (known : ∀ name ∈ trie.branches.names, (directory.located? name).isSome) :
    ∃ emission, ofTrie directory trie = .ok emission := by
  obtain ⟨draft, emitted⟩ := Draft.exists_emitForest known .start
  exact ⟨_, bind_eq_ok_iff.2 ⟨draft, emitted, rfl⟩⟩

end Emission

end TrieDispatch
