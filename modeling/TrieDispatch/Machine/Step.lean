import TrieDispatch.Machine.Frame

/-! Immediates are read before anything is popped. -/

namespace TrieDispatch.Machine

/-- Stands for the character at a position outside the key. -/
def keyEnd : Int := -1

def elementAt? {α : Type} (elements : Array α) (index : Int) : Option α :=
  if 0 ≤ index then elements[index.toNat]? else none

def keyLength (job : Job) : Action Unit := do
  popKey
  push job (.int job.key.size)

def keyCharAt (job : Job) : Action Unit := do
  let position ← popInt
  popKey
  push job (.int ((elementAt? job.key position).elim keyEnd fun c => c.toNat))

def loadElem (job : Job) : Action Unit := do
  let index ← popInt
  popArgs
  push job (.value ((elementAt? job.args index).getD .null))

def loadLocal (job : Job) (index : Nat) : Action Unit := do
  match (← get).locals[index]? with
  | some number => push job (.int number)
  | none => throw (.invalidLocal index)

def storeLocal (index : Nat) : Action Unit := do
  let number ← popInt
  if index < (← get).locals.size then
    modify fun frame => { frame with locals := frame.locals.setIfInBounds index number }
  else throw (.invalidLocal index)

/-- Sums outside the signed 64-bit numbers are refused. -/
def add (job : Job) : Action Unit := do
  let right ← popInt
  let left ← popInt
  if fitsSigned 64 (left + right) then push job (.int (left + right))
  else throw .arithmeticOverflow

/-- When the top two integers differ, moves by `displacement` from the pointer. -/
def branchNe (job : Job) (displacement : Int) : Action Unit := do
  let right ← popInt
  let left ← popInt
  if left ≠ right then
    let target := ((← get).ip : Int) + displacement
    if 0 ≤ target ∧ target < job.routine.code.size then moveTo target.toNat
    else throw .outOfCode

def castTo (job : Job) (tag : UInt8) : Action Unit := do
  match ParamKind.ofTag? tag with
  | none => throw (.invalidTypeTag tag)
  | some kind =>
    let value ← popValue
    push job (.value (kind.narrow value))

/-- The values of the cells, or the kind of the first that holds none. -/
def valuesOf : List Cell → Except String (List Value)
  | [] => .ok []
  | .value value :: rest => (value :: ·) <$> valuesOf rest
  | cell :: _ => .error cell.kind

/-- Takes the topmost cells in the order in which they were pushed, and calls the handler. The call
counts as made even when there is no room for its result. -/
def callHandler (job : Job) (index : Nat) : Action Unit := do
  match job.routine.handler? index with
  | none => throw (.invalidHandler index)
  | some handler =>
    let stack := (← get).stack
    if stack.size < handler.arity then throw .stackUnderflow
    let base := stack.size - handler.arity
    match valuesOf (stack.extract base stack.size).toList with
    | .error kind => throw (.kindMismatch "value" kind)
    | .ok args =>
      modify fun frame => { frame with
        stack := frame.stack.take base
        calls := frame.calls.push ⟨handler, args⟩ }
      push job ((handler.body args).elim .void .value)

/-- A handler that produced no value leaves the output as it is. -/
def storeOut : Action Unit := do
  match ← pop with
  | .value value => modify fun frame => { frame with out := some value }
  | .void => return ()
  | cell => throw (.kindMismatch "value" cell.kind)

def clearOut : Action Unit := modify fun frame => { frame with out := none }

/-- Moves the pointer past an immediate of `width` bytes that was read as `immediate?`. -/
def operand {α : Type} (width : Nat) (immediate? : ByteCode → Nat → Option α) (job : Job) :
    Action α := do
  let ip := (← get).ip
  match immediate? job.routine.code ip with
  | none => throw .outOfCode
  | some number =>
    moveTo (ip + width)
    return number

/-- The operation of an opcode that the pointer has passed; gives the answer of a `ret`. -/
def perform (job : Job) : Opcode → Action (Option Bool)
  | .loadKey => do push job .key; return none
  | .keyLength => do keyLength job; return none
  | .keyCharAt => do keyCharAt job; return none
  | .loadArgs => do push job .args; return none
  | .loadElem => do loadElem job; return none
  | .loadLocal0 => do loadLocal job 0; return none
  | .loadLocal1 => do loadLocal job 1; return none
  | .loadLocal => do loadLocal job (← operand 1 ByteCode.byte? job).toNat; return none
  | .storeLocal0 => do storeLocal 0; return none
  | .storeLocal1 => do storeLocal 1; return none
  | .storeLocal => do storeLocal (← operand 1 ByteCode.byte? job).toNat; return none
  | .pushDigit digit => do push job (.int digit.val); return none
  | .pushSmall => do push job (.int (← operand 1 ByteCode.signedByte? job)); return none
  | .pushInt => do push job (.int (← operand 4 ByteCode.signedWord? job)); return none
  | .add => do add job; return none
  | .branchNeShort => do branchNe job (← operand 1 ByteCode.signedByte? job); return none
  | .branchNe => do branchNe job (← operand 4 ByteCode.signedWord? job); return none
  | .ret => do return some ((← popInt) ≠ 0)
  | .castTo => do castTo job (← operand 1 ByteCode.byte? job); return none
  | .callHandler => do callHandler job (← operand 2 ByteCode.half? job); return none
  | .storeOut => do storeOut; return none
  | .clearOut => do clearOut; return none

def step (job : Job) : Action (Option Bool) := do
  modify fun frame => { frame with steps := frame.steps + 1 }
  let ip := (← get).ip
  match job.routine.code.byte? ip with
  | none => throw .outOfCode
  | some byte =>
    match Opcode.ofByte? byte with
    | none => throw (.invalidOpcode byte)
    | some opcode =>
      moveTo (ip + 1)
      perform job opcode

end TrieDispatch.Machine
