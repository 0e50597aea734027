import TrieDispatch.Proofs.Program.Assembly
import TrieDispatch.Proofs.Program.Surveys

/-! # Blocks of a program -/

namespace TrieDispatch.Program

variable {program : Program} {handlers : Array Handler} {start position : Nat}
  {block first second : List Instr}

def Contains (program : Program) (start : Nat) (block : List Instr) : Prop :=
  ∃ before after, program.toList = before ++ (block ++ after) ∧ before.length = start

theorem Contains.left (h : program.Contains start (first ++ second)) :
    program.Contains start first := by
  obtain ⟨before, after, split, length⟩ := h
  exact ⟨before, second ++ after, by simpa using split, length⟩

theorem Contains.right (h : program.Contains start (first ++ second)) :
    program.Contains (start + first.length) second := by
  obtain ⟨before, after, split, length⟩ := h
  exact ⟨before ++ first, after, by simpa using split, by rw [List.length_append, length]⟩

theorem Contains.getElem? (h : program.Contains start block) (index : Nat) {instr : Instr}
    (present : block[index]? = some instr) : program[start + index]? = some instr := by
  obtain ⟨before, after, split, rfl⟩ := h
  have inside := (List.getElem?_eq_some_iff.1 present).1
  rw [← Array.getElem?_toList, split, List.getElem?_append_right (Nat.le_add_right _ _),
    Nat.add_sub_cancel_left, List.getElem?_append_left inside, present]

theorem contains_toArray (block : List Instr) : Contains block.toArray 0 block :=
  ⟨[], [], by simp, rfl⟩

def Branches (holds : Nat → Nat → Prop) (start : Nat) (block : List Instr) : Prop :=
  ∀ index target, block[index]? = some (.branchTo target) → holds (start + index) target

variable {holds : Nat → Nat → Prop}

theorem Branches.append (h : Branches holds start first)
    (h' : Branches holds (start + first.length) second) :
    Branches holds start (first ++ second) := by
  intro index target present
  rw [List.getElem?_append] at present
  split at present
  next => exact h index target present
  next outside =>
    have := h' _ target present
    rwa [show start + first.length + (index - first.length) = start + index by omega] at this

theorem branches_of_not_mem (h : ∀ target, .branchTo target ∉ block) :
    Branches holds start block := by
  intro index target present
  exact absurd (List.mem_of_getElem? present) (h target)

theorem branches_set (h : ∀ target, .branchTo target ∉ block) {index target : Nat}
    (leads : holds (start + index) target) :
    Branches holds start (block.set index (.branchTo target)) := by
  intro other target' present
  rw [List.getElem?_set] at present
  split at present
  next same =>
    split at present
    next =>
      cases present
      exact same ▸ leads
    next => cases present
  next => exact absurd (List.mem_of_getElem? present) (h target')

/-- The depth that going through a block leads to; `none` when an instruction pops too much. -/
def climb (handlers : Array Handler) : (depth : Nat) → List Instr → Option Nat
  | depth, [] => some depth
  | depth, instr :: block =>
    if depth < (instr.stackEffect handlers).pops then none
    else climb handlers ((instr.stackEffect handlers).after depth) block

theorem climb_append (depth : Nat) (first second : List Instr) :
    climb handlers depth (first ++ second) =
      (climb handlers depth first).bind fun depth => climb handlers depth second := by
  induction first generalizing depth with
  | nil => rfl
  | cons instr first ih =>
    rw [List.cons_append, climb, climb]
    split
    next => rfl
    next => exact ih _

theorem climb_append_of_climb {depth middle : Nat} (h : climb handlers depth first = some middle) :
    climb handlers depth (first ++ second) = climb handlers middle second := by
  rw [climb_append, h, Option.bind_some]

def levelAt (program : Program) (handlers : Array Handler) (position : Nat) : Option Nat :=
  climb handlers 0 (program.toList.take position)

theorem levelAt_zero : program.levelAt handlers 0 = some 0 := rfl

theorem Contains.levelAt (h : program.Contains start block) (handlers : Array Handler) :
    program.levelAt handlers (start + block.length) =
      (program.levelAt handlers start).bind fun depth => climb handlers depth block := by
  obtain ⟨before, after, split, rfl⟩ := h
  rw [Program.levelAt, Program.levelAt, split, List.take_left, ← List.append_assoc,
    ← List.length_append, List.take_left, climb_append]

theorem Contains.levelAt_of_climb (h : program.Contains start block) {depth next : Nat}
    (before : program.levelAt handlers start = some depth)
    (climbs : climb handlers depth block = some next) :
    program.levelAt handlers (start + block.length) = some next := by
  rw [h.levelAt, before, Option.bind_some, climbs]

theorem contains_singleton {instr : Instr} (present : program[position]? = some instr) :
    program.Contains position [instr] := by
  rw [← Array.getElem?_toList] at present
  obtain ⟨inside, rfl⟩ := List.getElem?_eq_some_iff.1 present
  refine ⟨program.toList.take position, program.toList.drop (position + 1), ?_, ?_⟩
  · rw [List.singleton_append, ← List.drop_eq_getElem_cons, List.take_append_drop]
  · rw [List.length_take, Nat.min_eq_left (Nat.le_of_lt inside)]

theorem levelAt_succ {instr : Instr} {depth : Nat} (present : program[position]? = some instr)
    (before : program.levelAt handlers position = some depth) :
    program.levelAt handlers (position + 1) =
      if depth < (instr.stackEffect handlers).pops then none
      else some ((instr.stackEffect handlers).after depth) := by
  refine ((contains_singleton present).levelAt handlers).trans ?_
  rw [before]
  rfl

theorem isSome_levelAt (h : (program.levelAt handlers program.size).isSome) (position : Nat) :
    (program.levelAt handlers position).isSome := by
  have whole : program.toList = program.toList.take position ++ program.toList.drop position :=
    (List.take_append_drop _ _).symm
  rw [levelAt, ← Array.length_toList, List.take_length, whole, climb_append] at h
  rw [levelAt]
  cases reached : climb handlers 0 (program.toList.take position) with
  | none =>
    rw [reached] at h
    cases h
  | some depth => rfl

/-- Every branch leads to a position of the level that comes after it. -/
def Level (program : Program) (handlers : Array Handler) : Prop :=
  (program.levelAt handlers program.size).isSome ∧
    ∀ position target, program[position]? = some (.branchTo target) →
      program.levelAt handlers target = program.levelAt handlers (position + 1)

theorem levelAt_of_pathTo (level : program.Level handlers) {depth : Nat}
    (path : PathTo program handlers position depth) :
    program.levelAt handlers position = some depth := by
  induction path with
  | start => exact levelAt_zero
  | step path present enough leads inside ih =>
    have after := levelAt_succ present ih
    rw [if_neg (Nat.not_lt.2 enough)] at after
    cases leads with
    | next => exact after
    | target => rw [level.2 _ _ present, after]

theorem exists_survey_of_level (level : program.Level handlers) :
    ∃ survey, program.survey handlers = .ok survey := by
  cases surveyed : program.survey handlers with
  | ok survey => exact ⟨survey, rfl⟩
  | error error =>
    exfalso
    cases pathFault_of_survey surveyed with
    | @underflow position depth instr path present short =>
      have after := levelAt_succ present (levelAt_of_pathTo level path)
      rw [if_pos short] at after
      have := isSome_levelAt level.1 (position + 1)
      rw [after] at this
      cases this
    | inconsistent path path' differs =>
      have same := (levelAt_of_pathTo level path).symm.trans (levelAt_of_pathTo level path')
      exact differs (Option.some.inj same)

end TrieDispatch.Program
