import TrieDispatch.CompileError
import TrieDispatch.Handler

/-! # Stack depth -/

namespace TrieDispatch

structure StackEffect where
  pops : Nat
  pushes : Nat
  deriving DecidableEq, Repr

/-- A call pops one value for each parameter of its handler; a handler that is not in the table has
none. -/
def Instr.stackEffect (handlers : Array Handler) (instr : Instr) : StackEffect :=
  match instr.op with
  | .loadKey | .loadArgs | .loadLocal | .loadConst => ⟨0, 1⟩
  | .keyLength | .castTo => ⟨1, 1⟩
  | .keyCharAt | .loadElem | .add => ⟨2, 1⟩
  | .storeLocal | .storeOut | .ret => ⟨1, 0⟩
  | .branchNe => ⟨2, 0⟩
  | .clearOut => ⟨0, 0⟩
  | .callHandler =>
    match instr.operand with
    | .handler index => ⟨(handlers[index.toNat]?.map Handler.arity).getD 0, 1⟩
    | _ => ⟨0, 1⟩

def Instr.successors (position : Nat) (instr : Instr) : List Nat :=
  match instr.op with
  | .ret => []
  | .branchNe => (position + 1) :: instr.target?.toList
  | _ => [position + 1]

/-- The depth before each instruction reached so far, and the reached instructions that are still
to be followed, the latest first. -/
structure DepthSurvey where
  depths : Array (Option Nat)
  waiting : List Nat
  deepest : Nat

namespace DepthSurvey

def start (length : Nat) : DepthSurvey :=
  if length = 0 then ⟨#[], [], 0⟩
  else ⟨(Array.replicate length none).setIfInBounds 0 (some 0), [0], 0⟩

/-- Twice the instructions not reached yet, and those waiting. -/
def work (survey : DepthSurvey) : Nat :=
  2 * survey.depths.count none + survey.waiting.length

/-- Reaches `position` with `depth`. A position outside the program is no path. -/
def reach (survey : DepthSurvey) (depth position : Nat) : Except CompileError DepthSurvey :=
  if h : position < survey.depths.size then
    match survey.depths[position] with
    | none => .ok { survey with
        depths := survey.depths.set position (some depth)
        waiting := position :: survey.waiting }
    | some seen => if seen = depth then .ok survey else .error (.inconsistentDepth position)
  else .ok survey

def follow (program : Program) (handlers : Array Handler) (survey : DepthSurvey) (position : Nat) :
    Except CompileError DepthSurvey :=
  match program[position]?, survey.depths[position]?.join with
  | some instr, some depth =>
    let effect := instr.stackEffect handlers
    if depth < effect.pops then .error (.stackUnderflow position)
    else
      let after := depth - effect.pops + effect.pushes
      (instr.successors position).foldlM (fun survey next => survey.reach after next)
        { survey with deepest := max survey.deepest (max depth after) }
  | _, _ => .ok survey

private theorem work_reach {survey reached : DepthSurvey} {depth position : Nat}
    (h : survey.reach depth position = .ok reached) : reached.work ≤ survey.work := by
  unfold reach at h
  split at h
  next inside =>
    split at h
    next unseen =>
      cases h
      have := Array.count_set (a := some depth) (b := none) inside
      have positive : 0 < survey.depths.count none :=
        Array.count_pos_iff.2 (unseen ▸ Array.getElem_mem inside)
      simp only [work, unseen, List.length_cons] at *
      simp at this
      omega
    next =>
      split at h <;> cases h
      exact Nat.le_refl _
  next => cases h; exact Nat.le_refl _

private theorem work_reachEach {depth : Nat} (positions : List Nat)
    {survey reached : DepthSurvey}
    (h : positions.foldlM (fun survey next => survey.reach depth next) survey = .ok reached) :
    reached.work ≤ survey.work := by
  induction positions generalizing survey with
  | nil => cases h; exact Nat.le_refl _
  | cons position rest ih =>
    rw [List.foldlM_cons] at h
    cases step : survey.reach depth position with
    | error => rw [step] at h; cases h
    | ok next => rw [step] at h; exact Nat.le_trans (ih h) (work_reach step)

private theorem work_follow {program : Program} {handlers : Array Handler}
    {survey followed : DepthSurvey} {position : Nat}
    (h : survey.follow program handlers position = .ok followed) :
    followed.work ≤ survey.work := by
  unfold follow at h
  split at h
  next =>
    dsimp only at h
    split at h
    next => cases h
    next =>
      have := work_reachEach _ h
      exact this
  next => cases h; exact Nat.le_refl _

def finish (program : Program) (handlers : Array Handler) (survey : DepthSurvey) :
    Except CompileError DepthSurvey :=
  match _waiting : survey.waiting with
  | [] => .ok survey
  | position :: rest =>
    match _followed : follow program handlers { survey with waiting := rest } position with
    | .error error => .error error
    | .ok next => finish program handlers next
termination_by survey.work
decreasing_by
  have := work_follow _followed
  simp only [work, _waiting, List.length_cons] at *
  omega

end DepthSurvey

namespace Program

def survey (program : Program) (handlers : Array Handler) : Except CompileError DepthSurvey :=
  (DepthSurvey.start program.size).finish program handlers

/-- The deepest operand stack over all paths from the first instruction. -/
def maxDepth (program : Program) (handlers : Array Handler) : Except CompileError Nat :=
  DepthSurvey.deepest <$> program.survey handlers

end Program

end TrieDispatch
