import TrieDispatch.Code.Opcode
import TrieDispatch.CompileError

/-!
# Encoding

Widening only moves code apart, so a branch that has been made long never has to shrink again.
-/

namespace TrieDispatch

structure Encoding.Stats where
  /-- Passes until the layout was settled, the last one included. -/
  passes : Nat
  shortBranches : Nat
  longBranches : Nat
  /-- Integer loads without an immediate. -/
  digits : Nat
  deriving DecidableEq, Repr, Inhabited

structure Encoding where
  code : ByteCode
  offsets : Array Nat
  stats : Encoding.Stats
  deriving DecidableEq, Repr, Inhabited

namespace Program

/-- The form of the instruction at `position` in a program of `length`, with branches short. -/
def form (length position : Nat) (instr : Instr) : Except CompileError Opcode :=
  match instr.op, instr.operand with
  | .loadKey, .none => .ok .loadKey
  | .keyLength, .none => .ok .keyLength
  | .keyCharAt, .none => .ok .keyCharAt
  | .loadArgs, .none => .ok .loadArgs
  | .loadElem, .none => .ok .loadElem
  | .add, .none => .ok .add
  | .ret, .none => .ok .ret
  | .storeOut, .none => .ok .storeOut
  | .clearOut, .none => .ok .clearOut
  | .castTo, .kind _ => .ok .castTo
  | .callHandler, .handler _ => .ok .callHandler
  | .loadLocal, .slot index =>
    if index = 0 then .ok .loadLocal0
    else if index = 1 then .ok .loadLocal1
    else if index < 256 then .ok .loadLocal
    else .error (.invalidOperand position instr.op)
  | .storeLocal, .slot index =>
    if index = 0 then .ok .storeLocal0
    else if index = 1 then .ok .storeLocal1
    else if index < 256 then .ok .storeLocal
    else .error (.invalidOperand position instr.op)
  | .loadConst, .const number =>
    match Opcode.ofDigit? number with
    | some opcode => .ok opcode
    | none =>
      if fitsSigned 8 number then .ok .pushSmall
      else if fitsSigned 32 number then .ok .pushInt
      else .error (.invalidOperand position instr.op)
  | .branchNe, .pending => .error (.unboundBranch position)
  | .branchNe, .target target =>
    if target < length then .ok .branchNeShort else .error (.danglingBranch position target)
  | _, _ => .error (.invalidOperand position instr.op)

def forms (program : Program) : Except CompileError (Array Opcode) :=
  program.zipIdx.mapM fun (instr, position) => form program.size position instr

/-- Where each form starts, and last where the code ends. -/
def layout (forms : Array Opcode) : Array Nat :=
  forms.foldl (fun offsets opcode => offsets.push (offsets.back?.getD 0 + opcode.size)) #[0]

/-- From the end of the branch at `position` to its target. -/
def displacement (program : Program) (offsets : Array Nat) (position : Nat) : Int :=
  let target := (program[position]?.bind Instr.target?).getD position
  (offsets[target]?.getD 0 : Int) - (offsets[position + 1]?.getD 0 : Int)

/-- Makes every short branch long that does not reach its target in the present layout. -/
def widen (program : Program) (forms : Array Opcode) : Array Opcode :=
  let offsets := layout forms
  forms.mapIdx fun position opcode =>
    if opcode = .branchNeShort && !fitsSigned 8 (program.displacement offsets position) then
      .branchNe
    else opcode

/-- Widens until nothing changes, at most `budget` times, after `passes` earlier passes. -/
def settle (program : Program) : (budget passes : Nat) → Array Opcode →
    Except CompileError (Array Opcode × Nat)
  | 0, passes, _ => .error (.unsettledLayout passes)
  | budget + 1, passes, forms =>
    let widened := program.widen forms
    if widened = forms then .ok (forms, passes + 1)
    else program.settle budget (passes + 1) widened

def immediate (program : Program) (offsets : Array Nat) (position : Nat) : Int :=
  match program[position]?.map Instr.operand with
  | some (.const number) => number
  | some (.slot index) => index.toNat
  | some (.kind kind) => kind.tag.toNat
  | some (.handler index) => index.toNat
  | some (.target _) => program.displacement offsets position
  | _ => 0

def tooFar? (program : Program) (forms : Array Opcode) (offsets : Array Nat) : Option Nat :=
  (forms.zipIdx.find? fun (opcode, position) =>
    opcode = .branchNe && !fitsSigned 32 (program.displacement offsets position)).map (·.2)

def bytes (program : Program) (forms : Array Opcode) (offsets : Array Nat) : ByteCode :=
  forms.zipIdx.foldl (fun code (opcode, position) =>
    (code.push opcode.toByte).appendList
      (opcode.immediate.write (program.immediate offsets position))) #[]

def stats (forms : Array Opcode) (passes : Nat) : Encoding.Stats where
  passes := passes
  shortBranches := forms.count .branchNeShort
  longBranches := forms.count .branchNe
  digits := forms.countP fun opcode => opcode.digit?.isSome

/-- Laying out the code takes one pass even when `maxPasses` is zero. -/
def encode (program : Program) (maxPasses : Nat) : Except CompileError Encoding := do
  let short ← program.forms
  let (forms, passes) ← program.settle (max 1 maxPasses) 0 short
  let offsets := layout forms
  match program.tooFar? forms offsets with
  | some position => .error (.invalidOperand position .branchNe)
  | none => .ok ⟨program.bytes forms offsets, offsets.pop, stats forms passes⟩

end Program

end TrieDispatch
