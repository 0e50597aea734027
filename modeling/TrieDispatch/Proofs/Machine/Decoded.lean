import TrieDispatch.Proofs.Machine.Uniformity

namespace TrieDispatch.Machine

def execute (job : Job) (opcode : Opcode) (immediate : Int) : Action (Option Bool) :=
  match opcode with
  | .loadLocal => do loadLocal job immediate.toNat; return none
  | .storeLocal => do storeLocal immediate.toNat; return none
  | .pushSmall | .pushInt => do push job (.int immediate); return none
  | .branchNeShort | .branchNe => do branchNe job immediate; return none
  | .castTo => do castTo job immediate.toNat.toUInt8; return none
  | .callHandler => do callHandler job immediate.toNat; return none
  | opcode => perform job opcode

theorem execute_of_isBranch {opcode : Opcode} (branch : opcode.isBranch) (job : Job)
    (displacement : Int) :
    execute job opcode displacement = do branchNe job displacement; return none := by
  cases opcode with
  | branchNeShort | branchNe => rfl
  | _ => cases branch

theorem operand_bind {α β : Type} {width : Nat} {immediate? : ByteCode → Nat → Option α} {job : Job}
    {frame : Frame} {number : α} (read : immediate? job.routine.code frame.ip = some number)
    (rest : α → Action β) :
    (operand width immediate? job >>= rest) frame =
      rest number { frame with ip := frame.ip + width } := by
  simp only [operand, bind_apply, get_apply, read, moveTo_apply, pure_apply]

theorem operand_bind_of_none {α β : Type} {width : Nat} {immediate? : ByteCode → Nat → Option α}
    {job : Job} {frame : Frame} (unread : immediate? job.routine.code frame.ip = none)
    (rest : α → Action β) :
    (operand width immediate? job >>= rest) frame = .error .outOfCode frame := by
  simp only [operand, bind_apply, get_apply, unread, throw_apply]

theorem step_of_opcode {job : Job} {frame : Frame} {opcode : Opcode}
    (h : job.routine.code.opcode? frame.ip = some opcode) :
    step job frame =
      perform job opcode { frame with steps := frame.steps + 1, ip := frame.ip + 1 } := by
  obtain ⟨byte, read, known⟩ := Option.bind_eq_some_iff.1 h
  simp only [step, bind_apply, modify_apply, get_apply, read, known, moveTo_apply]

theorem step_of_decodeAt? {job : Job} {frame : Frame} {decoded : Decoded}
    (h : job.routine.code.decodeAt? frame.ip = some decoded) :
    step job frame = execute job decoded.opcode (decoded.immediate.getD 0)
      { frame with steps := frame.steps + 1, ip := decoded.nextOffset } := by
  rw [ByteCode.decodeAt?] at h
  obtain ⟨opcode, found, h⟩ := Option.bind_eq_some_iff.1 h
  rw [step_of_opcode found]
  cases opcode with
  | loadLocal | storeLocal =>
    obtain ⟨byte, read, rfl⟩ := Option.map_eq_some_iff.1 h
    exact operand_bind read _
  | castTo =>
    obtain ⟨byte, read, rfl⟩ := Option.map_eq_some_iff.1 h
    have same : ((byte.toNat : Int).toNat).toUInt8 = byte := UInt8.ofNat_toNat
    simp only [Option.getD_some, execute, same]
    exact operand_bind read _
  | pushSmall | branchNeShort =>
    obtain ⟨number, read, rfl⟩ := Option.map_eq_some_iff.1 h
    exact operand_bind read _
  | callHandler =>
    obtain ⟨index, found, rfl⟩ := Option.map_eq_some_iff.1 h
    obtain ⟨half, read, same⟩ := Option.bind_eq_some_iff.1 found
    obtain rfl := Option.some.inj same
    exact operand_bind read _
  | pushInt | branchNe =>
    obtain ⟨number, read, rfl⟩ := Option.map_eq_some_iff.1 h
    exact operand_bind read _
  | _ =>
    obtain rfl := Option.some.inj h
    rfl

def undecodedFault (code : ByteCode) (ip : Nat) : Fault :=
  match code.byte? ip with
  | some byte => if (Opcode.ofByte? byte).isNone then .invalidOpcode byte else .outOfCode
  | none => .outOfCode

/-- Where no instruction can be decoded, a step fails before it touches anything but the pointer. -/
theorem step_of_undecoded {job : Job} {frame : Frame}
    (h : job.routine.code.decodeAt? frame.ip = none) :
    step job frame = .error (undecodedFault job.routine.code frame.ip) { frame with
      steps := frame.steps + 1
      ip := if (job.routine.code.opcode? frame.ip).isSome then frame.ip + 1 else frame.ip } := by
  cases read : job.routine.code.byte? frame.ip with
  | none =>
    simp only [step, bind_apply, modify_apply, get_apply, throw_apply, undecodedFault,
      ByteCode.opcode?, read, Option.bind_none, Option.isSome_none, Bool.false_eq_true, if_false]
  | some byte =>
    cases known : Opcode.ofByte? byte with
    | none =>
      simp only [step, bind_apply, modify_apply, get_apply, throw_apply, undecodedFault,
        ByteCode.opcode?, read, known, Option.bind_some, Option.isSome_none, Option.isNone_none,
        Bool.false_eq_true, if_false, if_true]
    | some opcode =>
      -- The opcode is there, so it is the immediate that cannot be read.
      have found : job.routine.code.opcode? frame.ip = some opcode := by
        rw [ByteCode.opcode?, read, Option.bind_some, known]
      rw [ByteCode.decodeAt?, found, Option.bind_some] at h
      simp only [step_of_opcode found, undecodedFault, read, known, found, Option.isNone_some,
        Option.isSome_some, Bool.false_eq_true, if_false, if_true]
      cases opcode with
      | loadLocal | storeLocal | castTo | pushSmall | branchNeShort | pushInt | branchNe =>
        have unread := Option.map_eq_none_iff.1 h
        exact operand_bind_of_none unread _
      | callHandler =>
        have lifted := Option.map_eq_none_iff.1 h
        have unread : job.routine.code.half? (frame.ip + 1) = none := by
          simpa only [Option.bind_eq_bind, Option.pure_def, Option.bind_eq_none_iff, reduceCtorEq,
            imp_false, ← Option.eq_none_iff_forall_ne_some] using lifted
        exact operand_bind_of_none unread _
      | _ => cases h

/-- Apart from branching, no instruction looks at the pointer once it has been decoded. -/
theorem uniform_execute {opcode : Opcode} (straight : opcode.isBranch = false) (immediate : Int) :
    Uniform fun job => execute job opcode immediate := by
  have done {action : Job → Action Unit} (h : Uniform action) :
      Uniform fun job => action job >>= fun _ => pure (none : Option Bool) :=
    h.bind fun _ => uniform_pure none
  cases opcode with
  | loadKey | loadArgs | pushDigit | pushSmall | pushInt => exact done (uniform_pushCell _)
  | keyLength => exact done uniform_keyLength
  | keyCharAt => exact done uniform_keyCharAt
  | loadElem => exact done uniform_loadElem
  | loadLocal0 | loadLocal1 | loadLocal => exact done (uniform_loadLocal _)
  | storeLocal0 | storeLocal1 | storeLocal => exact done (uniform_storeLocal _)
  | add => exact done uniform_add
  | ret => exact uniform_popInt.bind fun number => uniform_pure (some (number ≠ 0 : Bool))
  | castTo => exact done (uniform_castTo _)
  | callHandler => exact done (uniform_callHandler _)
  | storeOut => exact done uniform_storeOut
  | clearOut => exact done uniform_clearOut
  | branchNeShort | branchNe => cases straight

theorem step_of_outside {job : Job} {frame : Frame} (h : job.routine.code.size ≤ frame.ip) :
    step job frame = .error .outOfCode { frame with steps := frame.steps + 1 } := by
  have read : job.routine.code.byte? frame.ip = none := Array.getElem?_eq_none h
  simp only [step, bind_apply, modify_apply, get_apply, read, throw_apply]

end TrieDispatch.Machine
