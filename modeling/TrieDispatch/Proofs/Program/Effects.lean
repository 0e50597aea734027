import TrieDispatch.Proofs.Code.Lowering
import TrieDispatch.Proofs.Machine.Balance
import TrieDispatch.Proofs.Program.Semantics

namespace TrieDispatch.Program

open Machine

theorem uniform_perform {length : Nat} {instr : Instr} {opcode : Opcode}
    (h : FormOf length instr opcode) (straight : instr.op ≠ .branchNe) :
    Uniform fun job => instr.perform job := by
  have done {action : Job → Action Unit} (h : Uniform action) :
      Uniform fun job => action job >>= fun _ => pure (none : Option Bool) :=
    h.bind fun _ => uniform_pure none
  cases h with
  | loadKey => exact done (uniform_pushCell .key)
  | keyLength => exact done uniform_keyLength
  | keyCharAt => exact done uniform_keyCharAt
  | loadArgs => exact done (uniform_pushCell .args)
  | loadElem => exact done uniform_loadElem
  | add => exact done uniform_add
  | ret => exact uniform_popInt.bind fun number => uniform_pure (some (number ≠ 0 : Bool))
  | storeOut => exact done uniform_storeOut
  | clearOut => exact done uniform_clearOut
  | castTo kind => exact uniform_popValue.bind fun _ => done (uniform_pushCell _)
  | callHandler index => exact done (uniform_callHandler index.toNat)
  | loadLocal0 | loadLocal1 | loadLocal => exact done (uniform_loadLocal _)
  | storeLocal0 | storeLocal1 | storeLocal => exact done (uniform_storeLocal _)
  | pushDigit | pushSmall | pushInt => exact done (uniform_pushCell _)
  | branchNeShort | branchNe => exact absurd rfl straight

theorem balanced_callHandler (job : Job) (index : UInt16) :
    Balanced job (Instr.stackEffect job.routine.handlers ⟨.callHandler, .handler index⟩)
      (callHandler job index.toNat) := by
  cases known : job.routine.handler? index.toNat with
  | none =>
    rw [callHandler_of_none known]
    exact balanced_throw _ _ trivial
  | some handler =>
    have arity : Instr.stackEffect job.routine.handlers ⟨.callHandler, .handler index⟩ =
        ⟨handler.arity, 1⟩ := by
      have : job.routine.handlers[index.toNat]? = some handler := known
      simp only [Instr.stackEffect, this, Option.map_some, Option.getD_some]
    rw [arity, callHandler_of_some known]
    exact balanced_callKnown handler

theorem balanced_branchNe (job : Job) (target : Nat) :
    Balanced job ⟨2, 0⟩ (Instr.perform job ⟨.branchNe, .target target⟩) :=
  balanced_popInt.bind fun _ => balanced_popInt.bind fun _ =>
    balanced_ite ((balanced_moveTo target).answer _) (balanced_pure none)

theorem balanced_perform {length : Nat} {instr : Instr} {opcode : Opcode}
    (h : FormOf length instr opcode) (job : Job) :
    Balanced job (instr.stackEffect job.routine.handlers) (instr.perform job) := by
  cases h with
  | loadKey | loadArgs | pushDigit | pushSmall | pushInt => exact (balanced_push _).answer _
  | keyLength => exact balanced_keyLength.answer _
  | keyCharAt => exact balanced_keyCharAt.answer _
  | loadElem => exact balanced_loadElem.answer _
  | add => exact balanced_add.answer _
  | ret => exact balanced_popInt.answer _
  | storeOut => exact balanced_storeOut.answer _
  | clearOut => exact balanced_clearOut.answer _
  | castTo kind => exact balanced_popValue.bind fun _ => (balanced_push _).answer _
  | callHandler index => exact (balanced_callHandler job index).answer _
  | loadLocal0 | loadLocal1 | loadLocal => exact (balanced_loadLocal _).answer _
  | storeLocal0 | storeLocal1 | storeLocal => exact (balanced_storeLocal _).answer _
  | branchNeShort | branchNe => exact balanced_branchNe job _

end TrieDispatch.Program
