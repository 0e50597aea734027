import TrieDispatch.Proofs.Code.Convergence
import TrieDispatch.Proofs.Compiling

/-! # Nesting of branches -/

namespace TrieDispatch

open Program

namespace Program

variable {program : Program} {holds holds' : Nat → Nat → Prop} {position target epilogue : Nat}
  {block : List Instr}

theorem Branches.imp (h : Branches holds position block)
    (weaker : ∀ position target, holds position target → holds' position target) :
    Branches holds' position block :=
  fun index target present => weaker _ _ (h index target present)

/-- A branch to the epilogue, or one whose span is left only for the epilogue. -/
def Encloses (epilogue : Nat) (program : Program) (position target : Nat) : Prop :=
  target = epilogue ∨ ∀ inner target', position < inner → inner < target →
    program[inner]? = some (.branchTo target') → target' ≤ target ∨ target' = epilogue

theorem encloses_of_contains (contains : program.Contains (position + 1) block)
    (fills : target ≤ position + 1 + block.length)
    (branches : Branches (fun _ target' => target' ≤ target ∨ target' = epilogue) (position + 1)
      block) : Encloses epilogue program position target := by
  right
  intro inner target' after before present
  obtain ⟨index, rfl⟩ := Nat.exists_eq_add_of_le (show position + 1 ≤ inner from after)
  have inside : index < block.length := by omega
  have within := List.getElem?_eq_getElem inside
  apply branches index target'
  rw [within, ← contains.getElem? index within, present]

end Program

namespace Forest

variable {directory : Directory} {epilogue start : Nat} {program : Program}

theorem leaves_nameCode (directory : Directory) (epilogue : Nat) (children : Forest)
    (name : Option String) (start : Nat) :
    Branches (fun _ target => target ≤ start + nameSize directory name ∨ target = epilogue) start
      (nameCode directory epilogue children name start) := by
  cases known : name.bind directory.located? with
  | none =>
    rw [nameCode_of_none _ _ known]
    exact branches_of_not_mem fun _ => List.not_mem_nil
  | some entry =>
    obtain ⟨position, handler⟩ := entry
    rw [nameCode_of_entry _ _ known]
    simp only [nameSize, known]
    refine .append (branches_set ?_ ?_) (branches_of_not_mem ?_)
    · simp [compareLength, Instr.branchTo]
    · split
      next => exact .inr rfl
      next => exact .inl (Nat.le_refl _)
    · simp [callHandler, answer, loadArgument, Instr.plain, Instr.branchTo]

theorem leaves_code (directory : Directory) (epilogue : Nat) (forest : Forest) (start : Nat) :
    Branches (fun _ target => target ≤ start + forest.codeSize directory ∨ target = epilogue) start
      (forest.code directory epilogue start) := by
  induction forest generalizing start with
  | nil => exact branches_of_not_mem fun _ => List.not_mem_nil
  | cons label id name children siblings below beside =>
    have within {last target : Nat} (early : last ≤ start +
        (cons label id name children siblings).codeSize directory)
        (h : target ≤ last ∨ target = epilogue) : target ≤ start +
          (cons label id name children siblings).codeSize directory ∨ target = epilogue :=
      h.imp_left fun less => Nat.le_trans less early
    rw [code_cons]
    refine .append (branches_set ?_ ?_)
      (.append (branches_of_not_mem ?_) (.append ?_ (.append ?_ ?_)))
    · simp [compareLabel, Instr.plain, Instr.branchTo]
    · split
      next => exact .inr rfl
      next =>
        left
        rw [codeSize]
        omega
    · simp [advance, Instr.plain, Instr.branchTo]
    · refine (leaves_nameCode directory epilogue children name (start + 9)).imp fun _ _ => within ?_
      rw [codeSize]
      omega
    · rw [length_nameCode]
      refine (below (start + 9 + nameSize directory name)).imp fun _ _ => within ?_
      rw [codeSize]
      omega
    · rw [length_nameCode, length_code]
      refine (beside (start + 9 + nameSize directory name + children.codeSize directory)).imp
        fun _ _ => within ?_
      rw [codeSize]
      omega

theorem encloses_nameCode (children : Forest) (name : Option String)
    (contains : program.Contains start (nameCode directory epilogue children name start)) :
    Branches (Encloses epilogue program) start
      (nameCode directory epilogue children name start) := by
  cases known : name.bind directory.located? with
  | none =>
    rw [nameCode_of_none _ _ known]
    exact branches_of_not_mem fun _ => List.not_mem_nil
  | some entry =>
    obtain ⟨position, handler⟩ := entry
    rw [nameCode_of_entry _ _ known] at contains ⊢
    have calling : ∀ target, .branchTo target ∉ callHandler handler position ++ answer true := by
      simp [callHandler, answer, loadArgument, Instr.plain, Instr.branchTo]
    refine .append (branches_set ?_ ?_) (branches_of_not_mem calling)
    · simp [compareLength, Instr.branchTo]
    · split
      next => exact .inl rfl
      next =>
        -- The span is the call, which has no branch.
        refine encloses_of_contains contains.right ?_ (branches_of_not_mem calling)
        rw [List.length_append, length_callHandler]
        show start + (7 + 4 * handler.arity) ≤ start + 2 + 1 + (4 * handler.arity + 2 + 2)
        omega

theorem encloses_code (forest : Forest)
    (contains : program.Contains start (forest.code directory epilogue start)) :
    Branches (Encloses epilogue program) start (forest.code directory epilogue start) := by
  induction forest generalizing start with
  | nil => exact branches_of_not_mem fun _ => List.not_mem_nil
  | cons label id name children siblings below beside =>
    have places := places_of_contains contains
    have skipping : ∀ target, .branchTo target ∉ advance := by
      simp [advance, Instr.plain, Instr.branchTo]
    rw [code_cons] at contains ⊢
    refine .append (branches_set ?_ ?_) (.append (branches_of_not_mem skipping)
      (.append (encloses_nameCode children name places.named) (.append ?_ ?_)))
    · simp [compareLabel, Instr.plain, Instr.branchTo]
    · split
      next => exact .inl rfl
      next =>
        -- The span is the rest of the node and all that is below it.
        have rest := contains.right
        rw [← List.append_assoc, ← List.append_assoc] at rest
        refine encloses_of_contains rest.left ?_
          (.append (.append (branches_of_not_mem skipping) ?_) ?_)
        · rw [List.length_append, List.length_append, length_nameCode, length_code]
          show _ ≤ start + 4 + 1 + (4 + _ + _)
          omega
        · refine (leaves_nameCode directory epilogue children name (start + 9)).imp
            fun _ _ => Or.imp_left fun less => ?_
          omega
        · rw [List.length_append, length_nameCode, show start + 4 + 1 + (advance.length +
            nameSize directory name) = start + 9 + nameSize directory name by
              show start + 4 + 1 + (4 + _) = _
              omega]
          exact leaves_code directory epilogue children _
    · rw [length_nameCode]
      exact below places.below
    · rw [length_nameCode, length_code]
      exact beside places.beside

theorem nested_program (callable : directory.Callable) (forest : Forest) :
    (forest.program directory).Nested (forest.codeEnd directory) := by
  have encloses : Branches (Encloses (forest.codeEnd directory) (forest.program directory)) 0
      (prologue ++ (forest.code directory (forest.codeEnd directory) prologue.length ++
        answer false)) := by
    refine .append (branches_of_not_mem ?_) (.append ?_ (branches_of_not_mem ?_))
    · simp [prologue, Instr.plain, Instr.branchTo]
    · rw [Nat.zero_add]
      exact encloses_code forest (contains_code directory forest)
    · simp [answer, Instr.plain, Instr.branchTo]
  constructor
  · intro position target present
    exact (goesOn_of_branchTo callable present).forward
  · intro position target present
    exact (goesOn_of_branchTo callable present).inside
  · intro position target position' target' present present' after before
    have outer := encloses position target (by rwa [program, List.getElem?_toArray] at present)
    rw [Nat.zero_add] at outer
    rcases outer with rfl | inner
    · exact .inl (goesOn_of_branchTo callable present').inside
    · exact inner position' target' after before present'

end Forest

namespace Program

/-- The program of acceptable handlers is encoded in at most three passes, however many handlers
there are and however long their names: three passes always settle its layout, and more are never
made. -/
theorem encoded_in_three_passes {handlers : List Handler} (few : handlers.length ≤ maxHandlers)
    (distinct : (handlers.map Handler.name).Nodup) (nonempty : "" ∉ handlers.map Handler.name) :
    ∃ directory trie emission program bound, Directory.ofDistinct handlers = .ok directory ∧
      Trie.ofNames (handlers.map Handler.name) = .ok trie ∧
      Emission.ofTrie directory trie = .ok emission ∧
      emission.code.resolve emission.landings emission.placeholders = (program, .ok bound) ∧
      (∀ maxPasses, 3 ≤ maxPasses → ∀ passes,
        program.encode maxPasses ≠ .error (.unsettledLayout passes)) ∧
      ∀ maxPasses encoding, program.encode maxPasses = .ok encoding →
        encoding.stats.passes ≤ 3 := by
  obtain ⟨trie, emission, depth, stages⟩ := exists_stages few distinct nonempty
  have nested := Forest.nested_program stages.callable trie.branches
  refine ⟨_, trie, emission, _, _, stages.directory_eq, stages.trie_eq, stages.emission_eq,
    stages.resolve_eq, ?_, ?_⟩
  · intro maxPasses
    exact (nested.passes_of_encode maxPasses).1
  · intro maxPasses
    exact (nested.passes_of_encode maxPasses).2

private def switches : List Handler :=
  [⟨"on", [], fun _ => none⟩, ⟨"once", [.str], fun args => args[0]?⟩, ⟨"off", [], fun _ => none⟩]

theorem encoded_in_three_passes_switches :
    switches.length ≤ maxHandlers ∧ (switches.map Handler.name).Nodup ∧
      "" ∉ switches.map Handler.name ∧
      ∃ directory trie emission program bound, Directory.ofDistinct switches = .ok directory ∧
        Trie.ofNames (switches.map Handler.name) = .ok trie ∧
        Emission.ofTrie directory trie = .ok emission ∧
        emission.code.resolve emission.landings emission.placeholders = (program, .ok bound) ∧
        ∀ passes, program.encode 3 ≠ .error (.unsettledLayout passes) := by
  have few : switches.length ≤ maxHandlers := by decide
  have distinct : (switches.map Handler.name).Nodup := by decide
  have nonempty : "" ∉ switches.map Handler.name := by decide
  obtain ⟨directory, trie, emission, program, bound, accepted, built, emitted, resolved,
      settles, -⟩ :=
    encoded_in_three_passes few distinct nonempty
  exact ⟨few, distinct, nonempty, directory, trie, emission, program, bound, accepted, built,
    emitted, resolved, settles 3 (Nat.le_refl 3)⟩

end Program

end TrieDispatch
