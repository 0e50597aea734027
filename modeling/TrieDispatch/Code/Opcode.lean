import TrieDispatch.Code.Immediate

namespace TrieDispatch

inductive Opcode where
  | loadKey
  | keyLength
  | keyCharAt
  | loadArgs
  | loadElem
  | loadLocal0
  | loadLocal1
  | loadLocal
  | storeLocal0
  | storeLocal1
  | storeLocal
  | pushDigit (digit : Fin 9)
  | pushSmall
  | pushInt
  | add
  | branchNeShort
  | branchNe
  | ret
  | castTo
  | callHandler
  | storeOut
  | clearOut
  deriving DecidableEq, Repr, Inhabited

namespace Opcode

def toByte : Opcode → UInt8
  | loadKey => 0x01
  | keyLength => 0x02
  | keyCharAt => 0x03
  | loadArgs => 0x04
  | loadElem => 0x05
  | loadLocal0 => 0x10
  | loadLocal1 => 0x11
  | loadLocal => 0x12
  | storeLocal0 => 0x13
  | storeLocal1 => 0x14
  | storeLocal => 0x15
  | pushDigit digit => 0x20 + digit.val.toUInt8
  | pushSmall => 0x29
  | pushInt => 0x2a
  | add => 0x30
  | branchNeShort => 0x40
  | branchNe => 0x41
  | ret => 0x42
  | castTo => 0x50
  | callHandler => 0x51
  | storeOut => 0x52
  | clearOut => 0x53

def ofByte? (byte : UInt8) : Option Opcode :=
  match byte with
  | 0x01 => some loadKey
  | 0x02 => some keyLength
  | 0x03 => some keyCharAt
  | 0x04 => some loadArgs
  | 0x05 => some loadElem
  | 0x10 => some loadLocal0
  | 0x11 => some loadLocal1
  | 0x12 => some loadLocal
  | 0x13 => some storeLocal0
  | 0x14 => some storeLocal1
  | 0x15 => some storeLocal
  | 0x20 => some (pushDigit 0)
  | 0x21 => some (pushDigit 1)
  | 0x22 => some (pushDigit 2)
  | 0x23 => some (pushDigit 3)
  | 0x24 => some (pushDigit 4)
  | 0x25 => some (pushDigit 5)
  | 0x26 => some (pushDigit 6)
  | 0x27 => some (pushDigit 7)
  | 0x28 => some (pushDigit 8)
  | 0x29 => some pushSmall
  | 0x2a => some pushInt
  | 0x30 => some add
  | 0x40 => some branchNeShort
  | 0x41 => some branchNe
  | 0x42 => some ret
  | 0x50 => some castTo
  | 0x51 => some callHandler
  | 0x52 => some storeOut
  | 0x53 => some clearOut
  | _ => none

@[simp]
theorem ofByte?_toByte (opcode : Opcode) : ofByte? opcode.toByte = some opcode := by
  cases opcode with
  | pushDigit digit => revert digit; decide
  | _ => rfl

def immediate : Opcode → Immediate
  | loadLocal | storeLocal | castTo => .byte
  | pushSmall | branchNeShort => .signedByte
  | callHandler => .half
  | pushInt | branchNe => .signedWord
  | _ => .none

def size (opcode : Opcode) : Nat := 1 + opcode.immediate.width

def mnemonic : Opcode → String
  | loadKey => "ldkey"
  | keyLength => "key_len"
  | keyCharAt => "key_char"
  | loadArgs => "ldargs"
  | loadElem => "ldelem"
  | loadLocal0 => "ldloc.0"
  | loadLocal1 => "ldloc.1"
  | loadLocal => "ldloc.s"
  | storeLocal0 => "stloc.0"
  | storeLocal1 => "stloc.1"
  | storeLocal => "stloc.s"
  | pushDigit digit => "push." ++ toString digit.val
  | pushSmall => "push.s"
  | pushInt => "push"
  | add => "add"
  | branchNeShort => "bne.s"
  | branchNe => "bne"
  | ret => "ret"
  | castTo => "isinst"
  | callHandler => "call"
  | storeOut => "stout"
  | clearOut => "clrout"

/-- The name in full, as opposed to the mnemonic of listings. -/
def title : Opcode → String
  | loadKey => "LoadKey"
  | keyLength => "KeyLength"
  | keyCharAt => "KeyCharAt"
  | loadArgs => "LoadArgs"
  | loadElem => "LoadElem"
  | loadLocal0 => "LoadLocal0"
  | loadLocal1 => "LoadLocal1"
  | loadLocal => "LoadLocal"
  | storeLocal0 => "StoreLocal0"
  | storeLocal1 => "StoreLocal1"
  | storeLocal => "StoreLocal"
  | pushDigit digit => "PushInt" ++ toString digit.val
  | pushSmall => "PushIntSmall"
  | pushInt => "PushInt"
  | add => "Add"
  | branchNeShort => "BranchNeShort"
  | branchNe => "BranchNe"
  | ret => "Return"
  | castTo => "CastTo"
  | callHandler => "CallHandler"
  | storeOut => "StoreOut"
  | clearOut => "ClearOut"

def isBranch : Opcode → Bool
  | branchNeShort | branchNe => true
  | _ => false

def isTerminator : Opcode → Bool
  | ret => true
  | _ => false

def digit? : Opcode → Option Int
  | pushDigit digit => some digit.val
  | _ => none

def ofDigit? (number : Int) : Option Opcode :=
  if 0 ≤ number then
    if h : number.toNat < 9 then some (pushDigit ⟨number.toNat, h⟩) else none
  else none

end Opcode

end TrieDispatch
