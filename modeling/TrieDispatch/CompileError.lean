import TrieDispatch.Program

namespace TrieDispatch

/-- A call operand is two bytes wide. -/
def maxHandlers : Nat := 65536

inductive CompileError where
  | duplicateName (name : String)
  | emptyName
  | tooManyHandlers (count : Nat)
  | unknownHandler (name : String)
  | unboundBranch (position : Nat)
  | danglingBranch (position target : Nat)
  | invalidOperand (position : Nat) (op : Op)
  /-- Some branch was still being widened in the last pass allowed. -/
  | unsettledLayout (passes : Nat)
  | stackUnderflow (position : Nat)
  | inconsistentDepth (position : Nat)
  deriving DecidableEq, Repr

def CompileError.message : CompileError → String
  | duplicateName name => "Duplicate handler name: " ++ name
  | emptyName => "Handler name must not be empty"
  | tooManyHandlers count => s!"Too many handlers ({count}, max {maxHandlers})"
  | unknownHandler name => "No handler registered as " ++ name
  | unboundBranch position => s!"Unresolved branch placeholder at instruction {position}"
  | danglingBranch position target =>
    s!"Branch at instruction {position} targets missing instruction {target}"
  | invalidOperand position op => s!"Invalid operand for {op.title} at instruction {position}"
  | unsettledLayout passes => s!"Branch encoding did not converge after {passes} passes"
  | stackUnderflow position => s!"Stack underflow at instruction {position}"
  | inconsistentDepth position => s!"Inconsistent stack depth at instruction {position}"

end TrieDispatch
