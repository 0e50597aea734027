import TrieDispatch.Proofs.Program.PathDepths
import TrieDispatch.Proofs.Program.Resolving

namespace TrieDispatch.Program

variable {program : Program} {handlers : Array Handler} {start stop depth middle position : Nat}
  {block first second : List Instr} {instr : Instr}

/-- The deepest stack on the way through a block that is entered with `depth`. -/
def peak (handlers : Array Handler) : (depth : Nat) → List Instr → Nat
  | depth, [] => depth
  | depth, instr :: block =>
    max depth (peak handlers ((instr.stackEffect handlers).after depth) block)

theorem le_peak (handlers : Array Handler) (depth : Nat) (block : List Instr) :
    depth ≤ peak handlers depth block := by
  cases block with
  | nil => exact Nat.le_refl _
  | cons instr block => exact Nat.le_max_left _ _

theorem climb_cons_eq_some (climbs : climb handlers depth (instr :: block) = some middle) :
    (instr.stackEffect handlers).pops ≤ depth ∧
      climb handlers ((instr.stackEffect handlers).after depth) block = some middle := by
  rw [climb] at climbs
  split at climbs
  next => cases climbs
  next enough => exact ⟨Nat.le_of_not_lt enough, climbs⟩

theorem peak_append (climbs : climb handlers depth first = some middle) :
    peak handlers depth (first ++ second) =
      max (peak handlers depth first) (peak handlers middle second) := by
  induction first generalizing depth with
  | nil =>
    obtain rfl := Option.some.inj climbs
    exact (max_eq_right (le_peak handlers depth second)).symm
  | cons instr first ih =>
    rw [List.cons_append, peak, ih (climb_cons_eq_some climbs).2, peak, max_assoc]

/-- Somewhere on the way through a block the stack is as deep as its peak. -/
theorem exists_climb_peak (climbs : climb handlers depth block = some middle) :
    ∃ count ≤ block.length,
      climb handlers depth (block.take count) = some (peak handlers depth block) := by
  induction block generalizing depth with
  | nil => exact ⟨0, Nat.le_refl _, rfl⟩
  | cons instr block ih =>
    obtain ⟨enough, climbs⟩ := climb_cons_eq_some climbs
    obtain ⟨count, inside, reaches⟩ := ih climbs
    rw [peak]
    rcases max_choice depth (peak handlers _ block) with same | same <;> rw [same]
    · exact ⟨0, Nat.zero_le _, rfl⟩
    · refine ⟨count + 1, Nat.add_le_add_right inside 1, ?_⟩
      rw [List.take_succ_cons, climb, if_neg (Nat.not_lt.2 enough), reaches]

theorem le_peak_of_levelAt (level : program.levelAt handlers position = some depth) :
    depth ≤ peak handlers 0 program.toList := by
  rw [← List.take_append_drop position program.toList, peak_append level]
  exact Nat.le_trans (le_peak handlers depth _) (Nat.le_max_right _ _)

def Reachable (program : Program) (handlers : Array Handler) (position : Nat) : Prop :=
  ∃ depth, PathTo program handlers position depth

def Covered (program : Program) (handlers : Array Handler) (start stop : Nat) : Prop :=
  ∀ position, start ≤ position → position < stop → program.Reachable handlers position

theorem covered_of_le (none : stop ≤ start) : program.Covered handlers start stop :=
  fun _ above below => absurd (Nat.lt_of_le_of_lt above below) (Nat.not_lt_of_le none)

theorem Covered.trans {mid : Nat} (h : program.Covered handlers start mid)
    (h' : program.Covered handlers mid stop) : program.Covered handlers start stop := by
  intro position above below
  rcases Nat.lt_or_ge position mid with early | late
  · exact h position above early
  · exact h' position late below

section

variable (level : program.Level handlers)

include level

theorem Reachable.next (h : program.Reachable handlers position)
    (present : program[position]? = some instr) {next : Nat}
    (leads : instr.LeadsTo position next) (inside : next < program.size) :
    program.Reachable handlers next := by
  obtain ⟨depth, path⟩ := h
  have after := levelAt_succ present (levelAt_of_pathTo level path)
  refine ⟨_, .step path present ?_ leads inside⟩
  by_contra short
  rw [if_pos (Nat.lt_of_not_le short)] at after
  have known := isSome_levelAt level.1 (position + 1)
  rw [after] at known
  cases known

/-- A reachable block that never returns is reachable throughout, and so is what comes after. -/
theorem Reachable.through (h : program.Reachable handlers start)
    (contains : program.Contains start block) (goesOn : ∀ instr ∈ block, instr.op ≠ .ret)
    (inside : start + block.length < program.size) :
    program.Covered handlers start (start + block.length) ∧
      program.Reachable handlers (start + block.length) := by
  have reaches (index : Nat) (within : index ≤ block.length) :
      program.Reachable handlers (start + index) := by
    induction index with
    | zero => exact h
    | succ index ih =>
      have present := List.getElem?_eq_getElem (Nat.lt_of_succ_le within)
      have going := goesOn _ (List.mem_of_getElem? present)
      exact (ih (Nat.le_of_succ_le within)).next level (contains.getElem? index present)
        (.next going) (by omega)
  refine ⟨fun position above below => ?_, reaches _ (Nat.le_refl _)⟩
  obtain ⟨index, rfl⟩ := Nat.exists_eq_add_of_le above
  exact reaches index (by omega)

theorem Reachable.jump (h : program.Reachable handlers position) {target : Nat}
    (present : program[position]? = some (.branchTo target)) (inside : target < program.size) :
    program.Reachable handlers target :=
  h.next level present (.target target) inside

theorem Reachable.covered_answer (h : program.Reachable handlers start) {found : Bool}
    (contains : program.Contains start (answer found)) (inside : start + 1 < program.size) :
    program.Covered handlers start (start + 2) := by
  have parts : program.Contains start ([⟨.loadConst, .const found.toInt⟩] ++ [.plain .ret]) :=
    contains
  obtain ⟨covered, last⟩ := h.through level parts.left (by simp) inside
  refine covered.trans fun position above below => ?_
  obtain rfl : position = start + 1 := Nat.le_antisymm (Nat.le_of_lt_succ below) above
  exact last

/-- Where paths lead everywhere, they go as deep as the program in one piece. -/
theorem maxDepth_of_covered (covered : program.Covered handlers 0 program.size) :
    program.maxDepth handlers = .ok (peak handlers 0 program.toList) := by
  obtain ⟨survey, surveyed⟩ := exists_survey_of_level level
  refine map_eq_ok_iff.2 ⟨survey, surveyed, (deepestOnPaths_of_survey surveyed).unique ?_⟩
  rw [DeepestOnPaths]
  split
  next empty => rw [Array.toList_eq_nil_iff.2 (Array.eq_empty_of_size_eq_zero empty), peak]
  next nonempty =>
  have levelOf {position depth : Nat} (path : PathTo program handlers position depth) :=
    levelAt_of_pathTo level path
  constructor
  · obtain ⟨depth, climbs⟩ := Option.isSome_iff_exists.1 level.1
    rw [levelAt, ← Array.length_toList, List.take_length] at climbs
    obtain ⟨count, within, reaches⟩ := exists_climb_peak climbs
    rw [Array.length_toList] at within
    rcases Nat.lt_or_eq_of_le within with less | rfl
    · obtain ⟨depth, path⟩ := covered count (Nat.zero_le _) less
      exact Option.some.inj ((levelOf path).symm.trans reaches) ▸ .before path
    · -- The peak at the very end is the depth after the last instruction.
      obtain ⟨last, size⟩ := Nat.exists_eq_add_one_of_ne_zero nonempty
      obtain ⟨depth, path⟩ := covered last (Nat.zero_le _) (by omega)
      have present := Array.getElem?_eq_getElem path.lt_size
      have after := levelAt_succ present (levelOf path)
      have ends : program.levelAt handlers (last + 1) = _ := size ▸ reaches
      rw [ends] at after
      split at after
      next => cases after
      next enough =>
        obtain same := Option.some.inj after
        exact same ▸ .after path present (Nat.le_of_not_lt enough)
  · rintro depth (path | ⟨path, present, enough⟩)
    · exact le_peak_of_levelAt (levelOf path)
    · have after := levelAt_succ present (levelOf path)
      rw [if_neg (Nat.not_lt.2 enough)] at after
      exact le_peak_of_levelAt after

end

end TrieDispatch.Program

namespace TrieDispatch.Forest

open Program

variable {directory : Directory} {epilogue start : Nat}

/-- Each argument takes a cell for the list and one for the index before it has its own. Without
arguments nothing is loaded, so the bound is stated over one cell. -/
theorem peak_loadArguments (handlers : Array Handler) (params : List ParamKind)
    (first depth : Nat) :
    max (depth + 1) (peak handlers depth ((params.zipIdx first).flatMap fun (kind, index) =>
      loadArgument index kind)) = depth + params.length + 1 := by
  induction params generalizing first depth with
  | nil => exact max_eq_left (Nat.le_succ depth)
  | cons kind params ih =>
    have loads : climb handlers depth (loadArgument first kind) = some (depth + 1) := by
      simp [climb, loadArgument, Instr.plain, Instr.stackEffect, StackEffect.after]
    have pair : peak handlers depth (loadArgument first kind) = depth + 2 := by
      simp [peak, loadArgument, Instr.plain, Instr.stackEffect, StackEffect.after]
      omega
    have rest := ih (first + 1) (depth + 1)
    rw [List.zipIdx_cons, List.flatMap_cons, peak_append loads, pair, List.length_cons]
    omega

theorem peak_callHandler {handlers : Array Handler} {handler : Handler} {position : Nat}
    (found : handlers[position.toUInt16.toNat]? = some handler) :
    peak handlers 0 (callHandler handler position) = handler.arity + 1 := by
  have call : peak handlers (0 + handler.params.length)
      [⟨.callHandler, .handler position.toUInt16⟩, .plain .storeOut] =
        max handler.arity 1 := by
    generalize position.toUInt16 = index at found
    simp [peak, Instr.plain, Instr.stackEffect, StackEffect.after, found, Handler.arity]
  have highest {loaded arity : Nat} (loads : max (0 + 1) loaded = 0 + arity + 1) :
      max loaded (max arity 1) = arity + 1 := by
    omega
  rw [callHandler, peak_append (climb_loadArguments handlers handler.params 0 0), call]
  exact highest (peak_loadArguments handlers handler.params 0 0)

theorem op_ne_ret_of_mem_callHandler (handler : Handler) (position : Nat) :
    ∀ instr ∈ callHandler handler position, instr.op ≠ .ret := by
  rw [callHandler_eq, List.forall_mem_append]
  refine ⟨fun instr member returns => ?_, by simp [Instr.plain]⟩
  have known := op_of_mem_loadArguments member
  simp [returns] at known

theorem peak_answer (handlers : Array Handler) (found : Bool) :
    peak handlers 0 (answer found) = 1 := rfl

theorem peak_prologue (handlers : Array Handler) : peak handlers 0 prologue = 1 := rfl

theorem peak_compareLabel (handlers : Array Handler) (label : Char) (target : Nat) :
    peak handlers 0 ((compareLabel label).set 4 (.branchTo target)) = 2 := rfl

theorem peak_advance (handlers : Array Handler) : peak handlers 0 advance = 2 := rfl

theorem peak_compareLength (handlers : Array Handler) (target : Nat) :
    peak handlers 0 (compareLength.set 2 (.branchTo target)) = 2 := rfl

theorem peak_nameCode_le_iff (callable : directory.Callable) (children : Forest)
    (name : Option String) (start : Nat) {bound : Nat} (two : 2 ≤ bound) :
    peak directory.handlers 0 (nameCode directory epilogue children name start) ≤ bound ↔
      ∀ entry, name.bind directory.located? = some entry → entry.2.arity + 1 ≤ bound := by
  cases known : name.bind directory.located? with
  | none =>
    rw [nameCode_of_none _ _ known]
    simp [peak]
  | some entry =>
    obtain ⟨position, handler⟩ := entry
    obtain ⟨name, rfl, entry⟩ := Option.bind_eq_some_iff.1 known
    have called := callable entry
    rw [nameCode_of_entry _ _ known, peak_append (climb_compareLength _ _),
      peak_append (climb_callHandler called), peak_compareLength, peak_callHandler called,
      peak_answer]
    simp only [max_le_iff, Option.some.injEq, forall_eq']
    omega

/-- What the code of a forest needs: two cells for each comparison, and for each call one cell over
the arguments. -/
theorem peak_code_le_iff (callable : directory.Callable) (forest : Forest) (start bound : Nat) :
    peak directory.handlers 0 (forest.code directory epilogue start) ≤ bound ↔
      (forest.isNil = false → 2 ≤ bound) ∧ ∀ name ∈ forest.names, ∀ entry,
        directory.located? name = some entry → entry.2.arity + 1 ≤ bound := by
  induction forest generalizing start with
  | nil => simp [code, peak, isNil, names]
  | cons label id name children siblings below beside =>
    rw [code_cons, peak_append (climb_compareLabel _ _ _), peak_append (climb_advance _),
      peak_append (climb_nameCode callable _ _ _), peak_append (climb_code callable _ _),
      peak_compareLabel, peak_advance]
    simp only [max_le_iff, below, beside]
    constructor
    · rintro ⟨two, -, named, ⟨-, lower⟩, -, rest⟩
      rw [peak_nameCode_le_iff callable _ _ _ two] at named
      refine ⟨fun _ => two, fun other member entry known => ?_⟩
      rw [names, List.mem_append, List.mem_append] at member
      rcases member with own | member | member
      · obtain rfl := Option.mem_toList.1 own
        exact named entry known
      · exact lower other member entry known
      · exact rest other member entry known
    · rintro ⟨nonempty, calls⟩
      have two := nonempty rfl
      simp only [names, List.mem_append, or_imp, forall_and] at calls
      obtain ⟨own, lower, rest⟩ := calls
      refine ⟨two, two, (peak_nameCode_le_iff callable _ _ _ two).2 fun entry known => ?_,
        ⟨fun _ => two, lower⟩, fun _ => two, rest⟩
      obtain ⟨other, rfl, known⟩ := Option.bind_eq_some_iff.1 known
      exact own other (Option.mem_toList.2 rfl) entry known

theorem peak_program_le_iff (callable : directory.Callable) (forest : Forest) (bound : Nat) :
    peak directory.handlers 0 (forest.program directory).toList ≤ bound ↔
      1 ≤ bound ∧ (forest.isNil = false → 2 ≤ bound) ∧ ∀ name ∈ forest.names, ∀ entry,
        directory.located? name = some entry → entry.2.arity + 1 ≤ bound := by
  rw [program, peak_append (climb_prologue _), peak_append (climb_code callable _ _),
    peak_prologue, peak_answer, max_le_iff, max_le_iff, peak_code_le_iff callable]
  constructor
  · rintro ⟨one, needs, -⟩
    exact ⟨one, needs⟩
  · rintro ⟨one, needs⟩
    exact ⟨one, needs, one⟩

section

variable {program : Program} (level : program.Level directory.handlers)
  (inside : epilogue < program.size)

include level inside

theorem covered_nameCode {children : Forest} {name : Option String}
    (contains : program.Contains start (nameCode directory epilogue children name start))
    (h : program.Reachable directory.handlers start)
    (fits : start + nameSize directory name + children.codeSize directory ≤ epilogue) :
    program.Covered directory.handlers start (start + nameSize directory name) ∧
      (children.isNil = false →
        program.Reachable directory.handlers (start + nameSize directory name)) := by
  cases known : name.bind directory.located? with
  | none =>
    rw [nameSize, known]
    exact ⟨covered_of_le (Nat.le_refl start), fun _ => h⟩
  | some entry =>
    obtain ⟨position, handler⟩ := entry
    rw [nameCode_of_entry _ _ known] at contains
    simp only [nameSize, known] at fits ⊢
    obtain ⟨compared, calls⟩ := h.through level contains.left
      (by simp [compareLength, Instr.branchTo]) (by
        show start + 3 < _
        omega)
    have called := contains.right.left
    have answered := contains.right.right
    rw [length_callHandler] at answered
    obtain ⟨calling, ends⟩ := calls.through level called
      (op_ne_ret_of_mem_callHandler handler position) (by
        rw [length_callHandler]
        show start + 3 + _ < _
        omega)
    rw [length_callHandler] at calling ends
    have answering := ends.covered_answer level answered (by
      show start + 3 + (4 * handler.arity + 2) + 1 < _
      omega)
    have size : start + 3 + (4 * handler.arity + 2) + 2 = start + (7 + 4 * handler.arity) := by
      omega
    refine ⟨size ▸ (compared.trans calling).trans answering, fun more => ?_⟩
    -- The answer returns, so only the comparison of the length leads to the first child.
    have branch : program[start + 2]? = some (.branchTo (start + (7 + 4 * handler.arity))) := by
      rw [contains.left.getElem? 2 rfl, more]
      rfl
    exact (compared (start + 2) (by omega) (Nat.lt_succ_self _)).jump level branch
      (by omega)

theorem covered_code (forest : Forest)
    (contains : program.Contains start (forest.code directory epilogue start))
    (h : forest.isNil = false → program.Reachable directory.handlers start)
    (fits : start + forest.codeSize directory ≤ epilogue) :
    program.Covered directory.handlers start (start + forest.codeSize directory) ∧
      (forest.isNil = false → program.Reachable directory.handlers epilogue) := by
  induction forest generalizing start with
  | nil => exact ⟨covered_of_le (Nat.le_refl start), nofun⟩
  | cons label id name children siblings below beside =>
    rw [codeSize] at fits ⊢
    have places := places_of_contains contains
    obtain ⟨comparing, compared⟩ := (h rfl).through level places.compare
      (by simp [compareLabel, Instr.plain, Instr.branchTo]) (by
        show start + 5 < _
        omega)
    obtain ⟨advancing, advanced⟩ := compared.through level places.advance
      (by simp [advance, Instr.plain]) (by
        show start + 5 + 4 < _
        omega)
    obtain ⟨naming, named⟩ := covered_nameCode level inside places.named advanced (by omega)
    obtain ⟨lower, -⟩ := below places.below named (by omega)
    -- Siblings, and the epilogue after the last, are reached from the comparison of the label.
    have branch := places.compare.getElem? 4 rfl
    have mismatch := (comparing (start + 4) (by omega) (Nat.lt_succ_self _)).jump level branch
      (by split <;> omega)
    obtain ⟨rest, ends⟩ := beside places.beside (fun more => by rwa [more] at mismatch) (by omega)
    have whole := (((comparing.trans advancing).trans naming).trans lower).trans rest
    refine ⟨by simpa only [Nat.add_assoc] using whole, fun _ => ?_⟩
    cases last : siblings.isNil with
    | true => rwa [last] at mismatch
    | false => exact ends last

end

/-- Every instruction of an assembled program is on some path. -/
theorem covered_program (callable : directory.Callable) (forest : Forest) :
    (forest.program directory).Covered directory.handlers 0 (forest.program directory).size := by
  have level := level_program callable forest
  have size := size_program directory forest
  have begins : (forest.program directory).Reachable directory.handlers 0 :=
    ⟨0, .start (by omega)⟩
  obtain ⟨opening, opened⟩ := begins.through level (contains_program directory forest).left
    (by simp [prologue, Instr.plain]) (by
      rw [size, codeEnd]
      omega)
  rw [Nat.zero_add] at opening opened
  obtain ⟨inner, ends⟩ := covered_code level (by omega) forest
    (contains_code directory forest) (fun _ => opened) (Nat.le_refl _)
  have last : (forest.program directory).Reachable directory.handlers
      (forest.codeEnd directory) := by
    cases empty : forest.isNil with
    | true =>
      obtain rfl := eq_nil_of_isNil empty
      exact opened
    | false => exact ends empty
  have answering := last.covered_answer level (contains_epilogue directory forest)
    (by omega)
  rw [size]
  exact (opening.trans inner).trans answering

theorem maxDepth_program (callable : directory.Callable) (forest : Forest) :
    (forest.program directory).maxDepth directory.handlers =
      .ok (peak directory.handlers 0 (forest.program directory).toList) :=
  maxDepth_of_covered (level_program callable forest) (covered_program callable forest)

end TrieDispatch.Forest
