import TrieDispatch.Proofs.Program.Blocks

namespace TrieDispatch

open Program

/-- Every handler can be called by the half of its position that fits a call operand. -/
def Directory.Callable (directory : Directory) : Prop :=
  ∀ {name position handler}, directory.located? name = some (position, handler) →
    directory.handlers[position.toUInt16.toNat]? = some handler

theorem Directory.located?_eq_some {directory : Directory} {name : String} {position : Nat}
    {handler : Handler} (h : directory.located? name = some (position, handler)) :
    directory.position? name = some position ∧ directory.handlers[position]? = some handler := by
  simp only [Directory.located?] at h
  split at h
  next placed found =>
    cases h
    rw [Directory.get?, placed, Option.bind_some] at found
    exact ⟨placed, found⟩
  next => cases h

theorem Directory.callable_of_few {directory : Directory}
    (few : directory.handlers.size ≤ maxHandlers) : directory.Callable := by
  intro name position handler known
  obtain ⟨-, found⟩ := Directory.located?_eq_some known
  have inside : position < directory.handlers.size := (Array.getElem?_eq_some_iff.1 found).1
  have fits : position.toUInt16.toNat = position :=
    Nat.mod_eq_of_lt (Nat.lt_of_lt_of_le inside few)
  rw [fits, found]

/-- The instructions of assembled code, with the integers and branch targets they may carry. -/
inductive Assembled (consts : Int → Prop) (epilogue : Nat) : Instr → Prop
  | plain {op : Op} : op ∈ [.loadKey, .keyLength, .keyCharAt, .loadArgs, .loadElem, .add, .ret,
      .storeOut, .clearOut] → Assembled consts epilogue (.plain op)
  | loadLocal {slot : UInt16} : slot = lengthSlot ∨ slot = matchedSlot →
      Assembled consts epilogue ⟨.loadLocal, .slot slot⟩
  | storeLocal {slot : UInt16} : slot = lengthSlot ∨ slot = matchedSlot →
      Assembled consts epilogue ⟨.storeLocal, .slot slot⟩
  | loadConst {number : Int} : consts number →
      Assembled consts epilogue ⟨.loadConst, .const number⟩
  | branchTo {target : Nat} : target ≤ epilogue → Assembled consts epilogue (.branchTo target)
  | castTo (kind : ParamKind) : Assembled consts epilogue ⟨.castTo, .kind kind⟩
  | callHandler (index : UInt16) : Assembled consts epilogue ⟨.callHandler, .handler index⟩

namespace Forest

variable {directory : Directory} {consts : Int → Prop} {epilogue start : Nat}

section

variable (zero : consts 0) (one : consts 1) (chars : ∀ c : Char, consts c.toNat)
  (indexes : ∀ {name position handler}, directory.located? name = some (position, handler) →
    ∀ index < handler.arity, consts index)

include zero in
theorem assembled_prologue : ∀ instr ∈ prologue, Assembled consts epilogue instr := by
  simp only [prologue, List.forall_mem_cons]
  exact ⟨.plain (by simp), .plain (by simp), .plain (by simp), .storeLocal (.inl rfl),
    .loadConst zero, .storeLocal (.inr rfl), by simp⟩

include zero one in
theorem assembled_answer (found : Bool) :
    ∀ instr ∈ answer found, Assembled consts epilogue instr := by
  simp only [answer, List.forall_mem_cons]
  refine ⟨.loadConst ?_, .plain (by simp), by simp⟩
  cases found with
  | false => exact zero
  | true => exact one

theorem assembled_loadArguments {params : List ParamKind} {first : Nat}
    (fits : ∀ index < first + params.length, consts index) :
    ∀ instr ∈ (params.zipIdx first).flatMap fun (kind, index) => loadArgument index kind,
      Assembled consts epilogue instr := by
  induction params generalizing first with
  | nil => simp
  | cons kind params ih =>
    rw [List.zipIdx_cons, List.flatMap_cons, List.forall_mem_append]
    rw [List.length_cons] at fits
    refine ⟨?_, ih fun index less => fits index (by omega)⟩
    simp only [loadArgument, List.forall_mem_cons]
    exact ⟨.plain (by simp), .loadConst (fits first (by omega)), .plain (by simp), .castTo kind,
      by simp⟩

include indexes zero one in
theorem assembled_nameCode (children : Forest) (name : Option String)
    (fits : start + nameSize directory name + children.codeSize directory ≤ epilogue) :
    ∀ instr ∈ nameCode directory epilogue children name start, Assembled consts epilogue instr := by
  cases known : name.bind directory.located? with
  | none => simp [nameCode_of_none _ _ known]
  | some entry =>
    obtain ⟨position, handler⟩ := entry
    obtain ⟨name, rfl, entry⟩ := Option.bind_eq_some_iff.1 known
    rw [nameCode_of_entry _ _ known, List.forall_mem_append, List.forall_mem_append]
    simp only [nameSize, known] at fits
    refine ⟨?_, ?_, assembled_answer zero one true⟩
    · show ∀ instr ∈ [_, _, _], _
      simp only [List.forall_mem_cons]
      refine ⟨.loadLocal (.inr rfl), .loadLocal (.inl rfl), .branchTo ?_, by simp⟩
      split <;> omega
    · rw [callHandler, List.forall_mem_append]
      refine ⟨assembled_loadArguments fun index less => indexes entry index (by
        simpa [Handler.arity] using less), ?_⟩
      simp only [List.forall_mem_cons]
      exact ⟨.callHandler _, .plain (by simp), by simp⟩

include indexes zero one chars in
theorem assembled_code (forest : Forest)
    (fits : start + forest.codeSize directory ≤ epilogue) :
    ∀ instr ∈ forest.code directory epilogue start, Assembled consts epilogue instr := by
  induction forest generalizing start with
  | nil => simp [code]
  | cons label id name children siblings below beside =>
    rw [codeSize] at fits
    simp only [code_cons, List.forall_mem_append]
    refine ⟨?_, ?_, assembled_nameCode zero one indexes _ _ (by omega), below (by omega),
      beside (by omega)⟩
    · show ∀ instr ∈ [_, _, _, _, _], _
      simp only [List.forall_mem_cons]
      refine ⟨.plain (by simp), .loadLocal (.inr rfl), .plain (by simp), .loadConst (chars label),
        .branchTo ?_, by simp⟩
      split <;> omega
    · simp only [advance, List.forall_mem_cons]
      exact ⟨.loadLocal (.inr rfl), .loadConst one, .plain (by simp), .storeLocal (.inr rfl),
        by simp⟩

end

theorem climb_loadArguments (handlers : Array Handler) (params : List ParamKind)
    (first depth : Nat) :
    climb handlers depth ((params.zipIdx first).flatMap fun (kind, index) =>
      loadArgument index kind) = some (depth + params.length) := by
  induction params generalizing first depth with
  | nil => rfl
  | cons kind params ih =>
    have loads : climb handlers depth (loadArgument first kind) = some (depth + 1) := by
      simp [climb, loadArgument, Instr.plain, Instr.stackEffect, StackEffect.after]
    rw [List.zipIdx_cons, List.flatMap_cons, climb_append_of_climb loads, ih, List.length_cons]
    congr 1
    omega

theorem climb_callHandler {handlers : Array Handler} {handler : Handler} {position : Nat}
    (found : handlers[position.toUInt16.toNat]? = some handler) :
    climb handlers 0 (callHandler handler position) = some 0 := by
  rw [callHandler, climb_append_of_climb (climb_loadArguments handlers handler.params 0 0)]
  generalize position.toUInt16 = index at found
  simp [climb, Instr.plain, Instr.stackEffect, StackEffect.after, found, Handler.arity]

theorem climb_answer (handlers : Array Handler) (found : Bool) :
    climb handlers 0 (answer found) = some 0 := rfl

theorem climb_prologue (handlers : Array Handler) : climb handlers 0 prologue = some 0 := rfl

theorem climb_compareLabel (handlers : Array Handler) (label : Char) (target : Nat) :
    climb handlers 0 ((compareLabel label).set 4 (.branchTo target)) = some 0 := rfl

theorem climb_advance (handlers : Array Handler) : climb handlers 0 advance = some 0 := rfl

theorem climb_compareLength (handlers : Array Handler) (target : Nat) :
    climb handlers 0 (compareLength.set 2 (.branchTo target)) = some 0 := rfl

theorem climb_nameCode (callable : directory.Callable) (children : Forest) (name : Option String)
    (start : Nat) :
    climb directory.handlers 0 (nameCode directory epilogue children name start) = some 0 := by
  cases known : name.bind directory.located? with
  | none =>
    rw [nameCode_of_none _ _ known]
    rfl
  | some entry =>
    obtain ⟨position, handler⟩ := entry
    obtain ⟨name, rfl, entry⟩ := Option.bind_eq_some_iff.1 known
    rw [nameCode_of_entry _ _ known, climb_append_of_climb (climb_compareLength _ _),
      climb_append_of_climb (climb_callHandler (callable entry)), climb_answer]

/-- The stack is empty again after the code of a forest. -/
theorem climb_code (callable : directory.Callable) (forest : Forest) (start : Nat) :
    climb directory.handlers 0 (forest.code directory epilogue start) = some 0 := by
  induction forest generalizing start with
  | nil => rfl
  | cons label id name children siblings below beside =>
    rw [code_cons, climb_append_of_climb (climb_compareLabel _ _ _),
      climb_append_of_climb (climb_advance _),
      climb_append_of_climb (climb_nameCode callable _ _ _), climb_append_of_climb (below _),
      beside]

/-- A branch that goes forward, from an empty stack to an empty stack, at most to the epilogue. -/
structure GoesOn (directory : Directory) (epilogue : Nat) (program : Program)
    (position target : Nat) : Prop where
  forward : position < target
  inside : target ≤ epilogue
  before : program.levelAt directory.handlers (position + 1) = some 0
  after : program.levelAt directory.handlers target = some 0

theorem branches_nameCode {program : Program} (children : Forest) (name : Option String)
    (contains : program.Contains start (nameCode directory epilogue children name start))
    (before : program.levelAt directory.handlers start = some 0)
    (ends : program.levelAt directory.handlers epilogue = some 0)
    (fits : start + nameSize directory name + children.codeSize directory ≤ epilogue)
    (goesOn : program.levelAt directory.handlers (start + nameSize directory name) = some 0) :
    Branches (GoesOn directory epilogue program) start
      (nameCode directory epilogue children name start) := by
  cases known : name.bind directory.located? with
  | none =>
    rw [nameCode_of_none _ _ known]
    exact branches_of_not_mem fun _ => List.not_mem_nil
  | some entry =>
    obtain ⟨position, handler⟩ := entry
    rw [nameCode_of_entry _ _ known] at contains ⊢
    simp only [nameSize, known] at fits goesOn
    refine Branches.append (branches_set ?_ ?_) (branches_of_not_mem ?_)
    · simp [compareLength, Instr.branchTo]
    · have compared := contains.left.levelAt_of_climb before (climb_compareLength _ _)
      cases leaf : children.isNil with
      | true => exact ⟨by simp only [if_true]; omega, Nat.le_refl _, compared, ends⟩
      | false =>
        simp only [Bool.false_eq_true, if_false]
        exact ⟨by omega, by omega, compared, goesOn⟩
    · simp [callHandler, answer, loadArgument, Instr.plain, Instr.branchTo]

structure Places (directory : Directory) (epilogue : Nat) (program : Program) (start : Nat)
    (label : Char) (name : Option String) (children siblings : Forest) : Prop where
  compare : program.Contains start ((compareLabel label).set 4 (.branchTo
    (if siblings.isNil then epilogue
      else start + 9 + nameSize directory name + children.codeSize directory)))
  advance : program.Contains (start + 5) advance
  named : program.Contains (start + 9) (nameCode directory epilogue children name (start + 9))
  below : program.Contains (start + 9 + nameSize directory name)
    (children.code directory epilogue (start + 9 + nameSize directory name))
  beside : program.Contains (start + 9 + nameSize directory name + children.codeSize directory)
    (siblings.code directory epilogue
      (start + 9 + nameSize directory name + children.codeSize directory))

theorem places_of_contains {program : Program} {label : Char} {id : Nat} {name : Option String}
    {children siblings : Forest} (contains : program.Contains start
      ((cons label id name children siblings).code directory epilogue start)) :
    Places directory epilogue program start label name children siblings := by
  rw [code_cons] at contains
  have named := contains.right.right.right
  have lower := contains.right.right.right.right
  rw [length_nameCode] at named lower
  rw [length_code] at lower
  exact ⟨contains.left, contains.right.left, contains.right.right.left, named.left, lower⟩

theorem Places.levels {program : Program} {label : Char} {name : Option String}
    {children siblings : Forest}
    (h : Places directory epilogue program start label name children siblings)
    (callable : directory.Callable) (before : program.levelAt directory.handlers start = some 0) :
    program.levelAt directory.handlers (start + 5) = some 0 ∧
      program.levelAt directory.handlers (start + 9) = some 0 ∧
      program.levelAt directory.handlers (start + 9 + nameSize directory name) = some 0 ∧
      program.levelAt directory.handlers
        (start + 9 + nameSize directory name + children.codeSize directory) = some 0 := by
  have compared := h.compare.levelAt_of_climb before (climb_compareLabel _ _ _)
  have advanced := h.advance.levelAt_of_climb compared (climb_advance _)
  have named := h.named.levelAt_of_climb advanced (climb_nameCode callable _ _ _)
  rw [length_nameCode] at named
  have lower := h.below.levelAt_of_climb named (climb_code callable _ _)
  rw [length_code] at lower
  exact ⟨compared, advanced, named, lower⟩

theorem branches_code {program : Program} (callable : directory.Callable) (forest : Forest)
    (contains : program.Contains start (forest.code directory epilogue start))
    (before : program.levelAt directory.handlers start = some 0)
    (ends : program.levelAt directory.handlers epilogue = some 0)
    (fits : start + forest.codeSize directory ≤ epilogue) :
    Branches (GoesOn directory epilogue program) start
      (forest.code directory epilogue start) := by
  induction forest generalizing start with
  | nil => exact branches_of_not_mem fun _ => List.not_mem_nil
  | cons label id name children siblings below beside =>
    rw [codeSize] at fits
    have places := places_of_contains contains
    obtain ⟨compared, advanced, named, lower⟩ := places.levels callable before
    have lowerFits : start + 9 + nameSize directory name + children.codeSize directory ≤
        epilogue := by omega
    have restFits : start + 9 + nameSize directory name + children.codeSize directory +
        siblings.codeSize directory ≤ epilogue := by omega
    rw [code_cons]
    refine .append ?_ (.append ?_ (.append ?_ (.append ?_ ?_)))
    · refine branches_set (by simp [compareLabel, Instr.plain, Instr.branchTo]) ?_
      cases last : siblings.isNil with
      | true => exact ⟨by simp only [if_true]; omega, Nat.le_refl _, compared, ends⟩
      | false =>
        simp only [Bool.false_eq_true, if_false]
        exact ⟨by omega, by omega, compared, lower⟩
    · exact branches_of_not_mem (by simp [advance, Instr.plain, Instr.branchTo])
    · exact branches_nameCode children name places.named advanced ends lowerFits named
    · rw [length_nameCode]
      exact below places.below named lowerFits
    · rw [length_nameCode, length_code]
      exact beside places.beside lower restFits

end Forest

end TrieDispatch
