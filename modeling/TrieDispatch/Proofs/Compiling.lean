import TrieDispatch.Compile
import TrieDispatch.Proofs.Code.Relaxation
import TrieDispatch.Proofs.Directories
import TrieDispatch.Proofs.Program.Resolving
import TrieDispatch.Proofs.Tries

/-! # What compiling comes to -/

namespace TrieDispatch

open Program

theorem Directory.Coherent.located?_eq {directory : Directory} (h : directory.Coherent)
    {position : Nat} {handler : Handler} (found : directory.handlers[position]? = some handler) :
    directory.located? handler.name = some (position, handler) := by
  have placed := (h handler.name position).2 ⟨handler, found, rfl⟩
  simp only [located?, get?, placed, Option.bind_some, found]

theorem Directory.Coherent.exists_entry {directory : Directory} (h : directory.Coherent)
    {name : String} (member : name ∈ directory.handlers.toList.map Handler.name) :
    (directory.located? name).isSome := by
  obtain ⟨handler, registered, rfl⟩ := List.mem_map.1 member
  obtain ⟨position, found⟩ := Array.mem_iff_getElem?.1 (Array.mem_toList_iff.1 registered)
  rw [h.located?_eq found, Option.isSome_some]

theorem Directory.Coherent.name_of_located? {directory : Directory} (h : directory.Coherent)
    {name : String} {entry : Nat × Handler} (known : directory.located? name = some entry) :
    entry.2.name = name := by
  obtain ⟨placed, found⟩ := Directory.located?_eq_some known
  obtain ⟨handler, found', named⟩ := (h name entry.1).1 placed
  obtain rfl := Option.some.inj (found.symm.trans found')
  exact named

theorem Directory.Coherent.isSome_located?_iff {directory : Directory} (h : directory.Coherent)
    {name : String} : (directory.located? name).isSome ↔
      name ∈ directory.handlers.toList.map Handler.name := by
  refine ⟨fun known => ?_, h.exists_entry⟩
  obtain ⟨⟨position, handler⟩, entry⟩ := Option.isSome_iff_exists.1 known
  obtain rfl := h.name_of_located? entry
  have found := (Directory.located?_eq_some entry).2
  exact List.mem_map_of_mem (Array.mem_toList_iff.2 (Array.mem_of_getElem? found))

theorem Assembled.form {consts : Int → Prop} {instr : Instr} {codeEnd length : Nat}
    (assembled : Assembled consts codeEnd instr) (inside : codeEnd < length) (position : Nat) :
    (∃ opcode, form length position instr = .ok opcode) ∨
      ∃ number, consts number ∧ fitsSigned 32 number = false ∧
        form length position instr = .error (.invalidOperand position .loadConst) := by
  cases assembled with
  | @plain op known =>
    left
    simp only [List.mem_cons, List.not_mem_nil, or_false] at known
    rcases known with rfl | rfl | rfl | rfl | rfl | rfl | rfl | rfl | rfl <;> exact ⟨_, rfl⟩
  | loadLocal slot =>
    left
    rcases slot with rfl | rfl
    · exact ⟨.loadLocal0, rfl⟩
    · exact ⟨.loadLocal1, rfl⟩
  | storeLocal slot =>
    left
    rcases slot with rfl | rfl
    · exact ⟨.storeLocal0, rfl⟩
    · exact ⟨.storeLocal1, rfl⟩
  | @loadConst number allowed =>
    simp only [Program.form]
    split
    next opcode _ => exact .inl ⟨opcode, rfl⟩
    next =>
      by_cases small : fitsSigned 8 number
      · exact .inl ⟨.pushSmall, if_pos small⟩
      · by_cases fits : fitsSigned 32 number
        · exact .inl ⟨.pushInt, by rw [if_neg small, if_pos fits]⟩
        · right
          refine ⟨number, allowed, Bool.not_eq_true _ ▸ fits, ?_⟩
          rw [if_neg small, if_neg fits]
  | branchTo within =>
    exact .inl ⟨.branchNeShort, if_pos (Nat.lt_of_le_of_lt within inside)⟩
  | castTo kind => exact .inl ⟨.castTo, rfl⟩
  | callHandler index => exact .inl ⟨.callHandler, rfl⟩

namespace Forest

variable {directory : Directory}

end Forest

section

variable {handlers : List Handler} (few : handlers.length ≤ maxHandlers)
  (distinct : (handlers.map Handler.name).Nodup)

/-- The stages that acceptable names go through before their program is encoded. -/
structure Stages (handlers : List Handler) (directory : Directory) (trie : Trie)
    (emission : Emission) (depth : Nat) : Prop where
  directory_eq : Directory.ofDistinct handlers = .ok directory
  trie_eq : Trie.ofNames (handlers.map Handler.name) = .ok trie
  emission_eq : Emission.ofTrie directory trie = .ok emission
  resolve_eq : emission.code.resolve emission.landings emission.placeholders =
    (trie.branches.program directory, .ok emission.placeholders.size)
  depth_eq : (trie.branches.program directory).maxDepth directory.handlers = .ok depth
  coherent : directory.Coherent
  callable : directory.Callable
  handlers_eq : directory.handlers = handlers.toArray
  holds : trie.Holds (handlers.map Handler.name)

include few distinct in
theorem exists_stages (nonempty : "" ∉ handlers.map Handler.name) :
    ∃ trie emission depth, Stages handlers (.ofList handlers) trie emission depth := by
  have coherent := Directory.coherent_ofList handlers
  have kept := Directory.handlers_ofList distinct
  have callable : (Directory.ofList handlers).Callable :=
    Directory.callable_of_few (by simpa [kept])
  obtain ⟨trie, built, holds⟩ := Trie.ofNames_of_nodup distinct nonempty
  have known (name : String) (member : name ∈ trie.branches.names) :
      ((Directory.ofList handlers).located? name).isSome :=
    coherent.exists_entry (by simpa [kept] using (holds.mem_iff name).1 member)
  obtain ⟨emission, emitted⟩ := Emission.exists_ofTrie known
  obtain ⟨depth, surveyed⟩ := Forest.exists_maxDepth_program callable trie.branches
  exact ⟨trie, emission, depth, Directory.ofDistinct_of_nodup few distinct, built, emitted,
    Emission.resolve_of_ofTrie emitted, surveyed, coherent, callable, kept, holds⟩

theorem Stages.known {directory : Directory} {trie : Trie} {emission : Emission} {depth : Nat}
    (h : Stages handlers directory trie emission depth) :
    ∀ name ∈ trie.branches.names, (directory.located? name).isSome := by
  intro name member
  apply h.coherent.exists_entry
  rw [h.handlers_eq]
  exact (h.holds.mem_iff name).1 member

theorem Stages.compile_eq {directory : Directory} {trie : Trie} {emission : Emission} {depth : Nat}
    (h : Stages handlers directory trie emission depth) (point : HookPoint)
    (settings : CompilerSettings) :
    compile point handlers settings = (fun encoding =>
      Routine.ofEncoding point encoding directory.handlers slotCount depth) <$>
        (trie.branches.program directory).encode settings.maxEncodePasses := by
  simp only [compile, Compilation.ofHandlers, h.directory_eq, h.trie_eq, h.emission_eq,
    h.resolve_eq, h.depth_eq, bind_ok]
  cases (trie.branches.program directory).encode settings.maxEncodePasses <;> rfl

theorem compile_of_directory_error {error : CompileError}
    (refused : Directory.ofDistinct handlers = .error error) (point : HookPoint)
    (settings : CompilerSettings) : compile point handlers settings = .error error := by
  simp only [compile, Compilation.ofHandlers, refused]
  rfl

theorem compile_of_trie_error {directory : Directory} {error : CompileError}
    (accepted : Directory.ofDistinct handlers = .ok directory)
    (refused : Trie.ofNames (handlers.map Handler.name) = .error error) (point : HookPoint)
    (settings : CompilerSettings) : compile point handlers settings = .error error := by
  simp only [compile, Compilation.ofHandlers, accepted, refused]
  rfl

theorem compile_of_tooMany (many : maxHandlers < handlers.length) (point : HookPoint)
    (settings : CompilerSettings) :
    compile point handlers settings = .error (.tooManyHandlers handlers.length) :=
  compile_of_directory_error (Directory.ofDistinct_of_tooMany many) point settings

include few in
theorem compile_of_repeated (repeated : ¬(handlers.map Handler.name).Nodup) (point : HookPoint)
    (settings : CompilerSettings) :
    ∃ index name, (handlers.map Handler.name)[index]? = some name ∧
      name ∈ (handlers.map Handler.name).take index ∧
      ((handlers.map Handler.name).take index).Nodup ∧
      compile point handlers settings = .error (.duplicateName name) := by
  obtain ⟨index, name, named, earlier, nodup⟩ := exists_first_repeat repeated
  have refused := Directory.ofDistinct_of_repeated few named earlier nodup
  exact ⟨index, name, named, earlier, nodup, compile_of_directory_error refused point settings⟩

include few distinct in
theorem compile_of_empty (empty : "" ∈ handlers.map Handler.name) (point : HookPoint)
    (settings : CompilerSettings) : compile point handlers settings = .error .emptyName :=
  compile_of_trie_error (Directory.ofDistinct_of_nodup few distinct)
    (Trie.ofNames_of_empty distinct empty) point settings

theorem stages_of_compile {point : HookPoint} {settings : CompilerSettings} {routine : Routine}
    (h : compile point handlers settings = .ok routine) :
    ∃ trie emission depth encoding, Stages handlers (.ofList handlers) trie emission depth ∧
      (trie.branches.program (.ofList handlers)).encode settings.maxEncodePasses = .ok encoding ∧
      routine = .ofEncoding point encoding handlers.toArray slotCount depth := by
  have few : handlers.length ≤ maxHandlers := by
    by_contra many
    cases (compile_of_tooMany (Nat.lt_of_not_le many) point settings).symm.trans h
  have distinct : (handlers.map Handler.name).Nodup := by
    by_contra repeated
    obtain ⟨_, _, -, -, -, refused⟩ := compile_of_repeated few repeated point settings
    cases refused.symm.trans h
  have nonempty : "" ∉ handlers.map Handler.name := by
    intro empty
    cases (compile_of_empty few distinct empty point settings).symm.trans h
  obtain ⟨trie, emission, depth, stages⟩ := exists_stages few distinct nonempty
  obtain ⟨encoding, encoded, made⟩ :=
    map_eq_ok_iff.1 ((stages.compile_eq point settings).symm.trans h)
  rw [stages.handlers_eq] at made
  exact ⟨trie, emission, depth, encoding, stages, encoded, made.symm⟩

end

end TrieDispatch
