import TrieDispatch.Value

namespace TrieDispatch

inductive Op where
  | loadKey
  | keyLength
  | keyCharAt
  | loadArgs
  | loadElem
  | loadLocal
  | storeLocal
  | loadConst
  | add
  /-- Branches when the top two integers differ. Operand: `target`. -/
  | branchNe
  | ret
  | castTo
  | callHandler
  | storeOut
  | clearOut
  deriving DecidableEq, Repr, Inhabited

def Op.title : Op → String
  | loadKey => "LoadKey"
  | keyLength => "KeyLength"
  | keyCharAt => "KeyCharAt"
  | loadArgs => "LoadArgs"
  | loadElem => "LoadElem"
  | loadLocal => "LoadLocal"
  | storeLocal => "StoreLocal"
  | loadConst => "LoadConst"
  | add => "Add"
  | branchNe => "BranchNe"
  | ret => "Return"
  | castTo => "CastTo"
  | callHandler => "CallHandler"
  | storeOut => "StoreOut"
  | clearOut => "ClearOut"

inductive Operand where
  | none
  | const (number : Int)
  | slot (index : UInt16)
  | kind (kind : ParamKind)
  | target (position : Nat)
  | handler (index : UInt16)
  | pending
  deriving DecidableEq, Repr, Inhabited

/-- Any operation may carry any operand; only some pairs have an encoding. -/
structure Instr where
  op : Op
  operand : Operand
  deriving DecidableEq, Repr, Inhabited

namespace Instr

def plain (op : Op) : Instr := ⟨op, .none⟩

def isBranch (instr : Instr) : Bool := instr.op == .branchNe

def target? (instr : Instr) : Option Nat :=
  match instr.operand with
  | .target position => some position
  | _ => none

def render (instr : Instr) : String :=
  instr.op.title ++
    match instr.operand with
    | .none => ""
    | .const number => " " ++ toString number
    | .slot index => " loc" ++ toString index.toNat
    | .kind kind => " " ++ kind.name
    | .target position => " -> #" ++ toString position
    | .handler index => " handler#" ++ toString index.toNat
    | .pending => " -> ?"

end Instr

abbrev Program := Array Instr

end TrieDispatch
