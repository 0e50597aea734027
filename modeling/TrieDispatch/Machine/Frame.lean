import TrieDispatch.Code.Routine

namespace TrieDispatch.Machine

/-- One cell of the operand stack. `void` is the result of a handler that produced no value. -/
inductive Cell where
  | int (number : Int)
  | key
  | args
  | value (value : Value)
  | void
  deriving Inhabited

def Cell.kind : Cell → String
  | int _ => "int"
  | key => "key"
  | args => "args"
  | value _ => "value"
  | void => "void"

inductive Fault where
  | stackUnderflow
  | stackOverflow
  | invalidOpcode (byte : UInt8)
  | invalidLocal (index : Nat)
  | invalidHandler (index : Nat)
  | invalidTypeTag (tag : UInt8)
  | kindMismatch (expected found : String)
  | arithmeticOverflow
  | outOfCode
  | stepLimit (limit : Nat)
  deriving DecidableEq, Repr

def Fault.message : Fault → String
  | stackUnderflow => "Stack underflow"
  | stackOverflow => "Value stack overflow"
  | invalidOpcode byte => "Invalid opcode: 0x" ++ String.ofList (Text.hexPadded 2 byte.toNat)
  | invalidLocal index => s!"Invalid local variable index: {index}"
  | invalidHandler index => s!"Invalid handler index: {index}"
  | invalidTypeTag tag => s!"Invalid parameter type tag: {tag.toNat}"
  | kindMismatch expected found => s!"Type error: expected {expected}, got {found}"
  | arithmeticOverflow => "Arithmetic overflow"
  | outOfCode => "Instruction pointer out of bounds"
  | stepLimit limit => s!"Step limit of {limit} exceeded"

/-- What a run is given: the routine, the key by characters, the arguments, and the most cells that
the stack may hold. -/
structure Job where
  routine : Routine
  key : Array Char
  args : Array Value
  room : Nat

structure Frame where
  ip : Nat
  stack : Array Cell
  locals : Array Int
  out : Option Value
  calls : Array Invocation
  steps : Nat
  deriving Inhabited

abbrev Action := EStateM Fault Frame

def Frame.start (routine : Routine) (out : Option Value) : Frame :=
  ⟨0, #[], Array.replicate routine.slotCount 0, out, #[], 0⟩

def push (job : Job) (cell : Cell) : Action Unit := fun frame =>
  if frame.stack.size < job.room then
    .ok () { frame with stack := frame.stack.push cell }
  else .error .stackOverflow frame

def pop : Action Cell := fun frame =>
  match frame.stack.back? with
  | some cell => .ok cell { frame with stack := frame.stack.pop }
  | none => .error .stackUnderflow frame

def popInt : Action Int := do
  match ← pop with
  | .int number => return number
  | cell => throw (.kindMismatch "int" cell.kind)

def popValue : Action Value := do
  match ← pop with
  | .value value => return value
  | cell => throw (.kindMismatch "value" cell.kind)

def popKey : Action Unit := do
  match ← pop with
  | .key => return ()
  | cell => throw (.kindMismatch "key" cell.kind)

def popArgs : Action Unit := do
  match ← pop with
  | .args => return ()
  | cell => throw (.kindMismatch "args" cell.kind)

/-- Sets the pointer; the instruction it leaves has been read in full. -/
def moveTo (ip : Nat) : Action Unit := modify fun frame => { frame with ip := ip }

end TrieDispatch.Machine
