import TrieDispatch.Code.Encoding
import TrieDispatch.Handler
import TrieDispatch.HookPoint

namespace TrieDispatch

structure Routine where
  point : HookPoint
  code : ByteCode
  offsets : Array Nat
  handlers : Array Handler
  slotCount : Nat
  maxDepth : Nat
  stats : Encoding.Stats
  deriving Inhabited

structure Decoded where
  offset : Nat
  opcode : Opcode
  immediate : Option Int
  deriving DecidableEq, Repr

namespace Decoded

def size (decoded : Decoded) : Nat := decoded.opcode.size

def nextOffset (decoded : Decoded) : Nat := decoded.offset + decoded.size

/-- `none` for what is no branch and for a branch before the start of the code. -/
def branchTarget? (decoded : Decoded) : Option Nat :=
  if decoded.opcode.isBranch then
    decoded.immediate.bind fun displacement =>
      let target := (decoded.nextOffset : Int) + displacement
      if 0 ≤ target then some target.toNat else none
  else none

def pushed? (decoded : Decoded) : Option Int :=
  match decoded.opcode with
  | .pushSmall | .pushInt => decoded.immediate
  | opcode => opcode.digit?

end Decoded

namespace ByteCode

def opcode? (code : ByteCode) (offset : Nat) : Option Opcode :=
  (code.byte? offset).bind Opcode.ofByte?

def decodeAt? (code : ByteCode) (offset : Nat) : Option Decoded :=
  (code.opcode? offset).bind fun opcode =>
    match opcode.immediate with
    | .none => some ⟨offset, opcode, none⟩
    | .byte => (code.byte? (offset + 1)).map fun byte => ⟨offset, opcode, some byte.toNat⟩
    | .signedByte => (code.signedByte? (offset + 1)).map fun byte => ⟨offset, opcode, some byte⟩
    | .half => (code.half? (offset + 1)).map fun half => ⟨offset, opcode, some half⟩
    | .signedWord => (code.signedWord? (offset + 1)).map fun word => ⟨offset, opcode, some word⟩

theorem lt_size_of_decodeAt? {code : ByteCode} {offset : Nat} {decoded : Decoded}
    (h : code.decodeAt? offset = some decoded) : offset < code.size := by
  simp only [decodeAt?, opcode?, byte?, Option.bind_eq_some_iff] at h
  obtain ⟨_, ⟨byte, present, _⟩, _⟩ := h
  exact (Array.getElem?_eq_some_iff.1 present).1

theorem offset_of_decodeAt? {code : ByteCode} {offset : Nat} {decoded : Decoded}
    (h : code.decodeAt? offset = some decoded) : decoded.offset = offset := by
  simp only [decodeAt?, Option.bind_eq_some_iff] at h
  obtain ⟨opcode, _, h⟩ := h
  split at h <;> simp only [Option.some.injEq, Option.map_eq_some_iff] at h
  · rw [← h]
  all_goals obtain ⟨_, _, h⟩ := h; rw [← h]

/-- The instructions from `offset` on, up to the end or the first that does not decode. -/
def decodeFrom (code : ByteCode) (offset : Nat) (earlier : Array Decoded) : Array Decoded :=
  match _found : code.decodeAt? offset with
  | none => earlier
  | some decoded => code.decodeFrom decoded.nextOffset (earlier.push decoded)
termination_by code.size - offset
decreasing_by
  have := lt_size_of_decodeAt? _found
  have := offset_of_decodeAt? _found
  simp only [Decoded.nextOffset, Decoded.size, Opcode.size] at *
  omega

def decode (code : ByteCode) : Array Decoded := code.decodeFrom 0 #[]

def branchTargets (code : ByteCode) : Array Nat := code.decode.filterMap Decoded.branchTarget?

end ByteCode

namespace Routine

def handler? (routine : Routine) (index : Nat) : Option Handler := routine.handlers[index]?

def maxArity (routine : Routine) : Nat :=
  routine.handlers.foldl (fun largest handler => max largest handler.arity) 0

end Routine

end TrieDispatch
