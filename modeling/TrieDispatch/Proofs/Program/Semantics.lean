import TrieDispatch.Proofs.Machine.Runs
import TrieDispatch.Proofs.Machine.Uniformity

/-!
# Programs carried out instruction by instruction

The pointer counts instructions instead of bytes, and a branch goes to the position it names.
-/

namespace TrieDispatch

open Machine

/-- The operation of an instruction that the pointer has passed; gives the answer of a `ret`. An
operation with an operand that is not its own has no meaning. -/
def Instr.perform (job : Job) (instr : Instr) : Action (Option Bool) :=
  match instr.op, instr.operand with
  | .loadKey, .none => do push job .key; return none
  | .keyLength, .none => do keyLength job; return none
  | .keyCharAt, .none => do keyCharAt job; return none
  | .loadArgs, .none => do push job .args; return none
  | .loadElem, .none => do loadElem job; return none
  | .loadLocal, .slot index => do loadLocal job index.toNat; return none
  | .storeLocal, .slot index => do storeLocal index.toNat; return none
  | .loadConst, .const number => do push job (.int number); return none
  | .add, .none => do add job; return none
  | .branchNe, .target target => do
    let right ← popInt
    let left ← popInt
    if left ≠ right then moveTo target
    return none
  | .ret, .none => do return some ((← popInt) ≠ 0)
  | .castTo, .kind kind => do
    let value ← popValue
    push job (.value (kind.narrow value))
    return none
  | .callHandler, .handler index => do callHandler job index.toNat; return none
  | .storeOut, .none => do storeOut; return none
  | .clearOut, .none => do clearOut; return none
  | _, _ => throw (.invalidOpcode 0)

theorem Instr.perform_branchNe {job : Job} {frame middle popped : Frame} {right left : Int}
    (first : popInt frame = .ok right middle) (second : popInt middle = .ok left popped)
    (target : Nat) :
    Instr.perform job ⟨.branchNe, .target target⟩ frame =
      .ok none (if left = right then popped else { popped with ip := target }) := by
  simp only [Instr.perform, bind_apply, first, second]
  by_cases equal : left = right
  · simp only [equal, ne_eq, not_true, if_false, if_true]
    rfl
  · simp only [equal, ne_eq, not_false_eq_true, if_true, if_false]
    rfl

theorem Instr.exists_popInt_of_branchNe {job : Job} {target : Nat} {frame next : Frame}
    {answer : Option Bool}
    (taken : Instr.perform job ⟨.branchNe, .target target⟩ frame = .ok answer next) :
    ∃ right middle left popped, popInt frame = .ok right middle ∧
      popInt middle = .ok left popped ∧ answer = none ∧
      next = if left = right then popped else { popped with ip := target } := by
  cases first : popInt frame with
  | error fault last =>
    simp only [Instr.perform, bind_apply, first, reduceCtorEq] at taken
  | ok right middle =>
    cases second : popInt middle with
    | error fault last =>
      simp only [Instr.perform, bind_apply, first, second, reduceCtorEq] at taken
    | ok left popped =>
      rw [Instr.perform_branchNe first second] at taken
      injection taken with same next
      exact ⟨right, middle, left, popped, rfl, second, same.symm, next.symm⟩

namespace Program

def step (program : Program) (job : Job) : Action (Option Bool) := fun frame =>
  match program[frame.ip]? with
  | none => .error .outOfCode { frame with steps := frame.steps + 1 }
  | some instr => instr.perform job { frame with ip := frame.ip + 1, steps := frame.steps + 1 }

/-- Whether a handler was found, and the last frame, after at most `limit` instructions. -/
def run (program : Program) (job : Job) (limit : Nat) (first : Frame) :
    Except Fault Bool × Frame :=
  loop (program.step job) limit limit first

variable {program : Program} {job : Job} {frame : Frame}

theorem step_of_instr {instr : Instr} (h : program[frame.ip]? = some instr) :
    program.step job frame =
      instr.perform job { frame with ip := frame.ip + 1, steps := frame.steps + 1 } := by
  simp only [step, h]

theorem step_of_outside (h : program.size ≤ frame.ip) :
    program.step job frame = .error .outOfCode { frame with steps := frame.steps + 1 } := by
  simp only [step, Array.getElem?_eq_none h]

end Program

end TrieDispatch
