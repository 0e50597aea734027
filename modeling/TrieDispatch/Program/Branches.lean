import Std.Data.TreeMap
import TrieDispatch.CompileError

/-! # Placeholder branches -/

namespace TrieDispatch

/-- Where a placeholder branch must land. -/
inductive Landing where
  /-- The first instruction of a subtree, counted in preorder. -/
  | subtree (number : Nat)
  | epilogue
  deriving DecidableEq, Repr

def Landing.render : Landing → String
  | subtree number => s!"Subtree({number})"
  | epilogue => "Epilogue"

abbrev Placeholders := Std.TreeMap Nat Landing

structure LandingTable where
  /-- The first instruction of every subtree, in preorder. -/
  starts : Array Nat
  epilogue : Nat
  deriving Repr

/-- A subtree that does not exist lands on the epilogue. -/
def LandingTable.position (landings : LandingTable) : Landing → Nat
  | .subtree number => landings.starts[number]?.getD landings.epilogue
  | .epilogue => landings.epilogue

namespace Program

/-- What keeps the instruction at `position` from being sound in a program of `length`. -/
def branchFault? (length position : Nat) (instr : Instr) : Option CompileError :=
  match instr.operand with
  | .pending => some (.unboundBranch position)
  | .target target => if target < length then none else some (.danglingBranch position target)
  | _ => none

/-- The first instruction that is pending or goes outside the program, whatever its operation. -/
def firstBranchFault? (program : Program) : Option CompileError :=
  program.zipIdx.findSome? fun (instr, position) => branchFault? program.size position instr

def bindAll (landings : LandingTable) :
    List (Nat × Landing) → Program → Program × Option CompileError
  | [], program => (program, none)
  | (position, landing) :: rest, program =>
    if h : position < program.size then
      bindAll landings rest
        (program.set position ⟨program[position].op, .target (landings.position landing)⟩)
    else (program, some (.unboundBranch position))

/-- The program with its placeholders bound in ascending order, and their number when all branches
are sound afterwards. What was bound before a failure stays bound. -/
def resolve (landings : LandingTable) (placeholders : Placeholders) (program : Program) :
    Program × Except CompileError Nat :=
  match bindAll landings placeholders.toList program with
  | (bound, some error) => (bound, .error error)
  | (bound, none) =>
    match bound.firstBranchFault? with
    | some error => (bound, .error error)
    | none => (bound, .ok placeholders.size)

end Program

end TrieDispatch
