import TrieDispatch.Compile
import TrieDispatch.Proofs.Machine.Decoded
import TrieDispatch.Proofs.Program.Effects

/-! # Byte code in lock-step with its program -/

namespace TrieDispatch

open Machine

/-- Where the instruction at `position` starts; past the last instruction, where the code ends. -/
def Encoding.place (encoding : Encoding) (position : Nat) : Nat :=
  encoding.offsets[position]?.getD encoding.code.size

namespace Program

theorem execute_eq_perform {length : Nat} {instr : Instr} {opcode : Opcode}
    (h : FormOf length instr opcode) (straight : instr.op ≠ .branchNe) {program : Program}
    {position : Nat} (present : program[position]? = some instr) (offsets : Array Nat) (job : Job) :
    execute job opcode ((opcode.immediate.read (program.immediate offsets position)).getD 0) =
      instr.perform job := by
  rw [immediate_of_operand present]
  cases h with
  | castTo kind =>
    have tag : ((kind.tag.toNat : Int).toNat).toUInt8 = kind.tag := UInt8.ofNat_toNat
    simp only [Opcode.immediate, Immediate.read, Option.getD_some, execute, tag, castTo,
      ParamKind.ofTag?_tag, bind_assoc]
    rfl
  | branchNeShort | branchNe => exact absurd rfl straight
  | _ => rfl

/-- A branch that is taken goes to the first byte of its target. -/
theorem branchNe_moved {job : Job} {rename : Nat → Nat} {displacement : Int} {target : Nat}
    {frame : Frame} (leads : (rename frame.ip : Int) + displacement = rename target)
    (inside : rename target < job.routine.code.size) :
    (do branchNe job displacement; return none : Action (Option Bool)) (frame.moved rename) =
      movedResult rename (Instr.perform job ⟨.branchNe, .target target⟩ frame) := by
  have first := uniform_popInt.moved job rename frame
  simp only [Instr.perform, branchNe, bind_apply, first]
  cases right : popInt frame with
  | error fault last => rfl
  | ok number next =>
    have second := uniform_popInt.moved job rename next
    simp only [movedResult, second]
    cases left : popInt next with
    | error fault last => rfl
    | ok other last =>
      have stays : last.ip = frame.ip :=
        (uniform_popInt.ip_eq job left).trans (uniform_popInt.ip_eq job right)
      by_cases equal : other = number
      · simp only [equal, ne_eq, not_true, if_false]
        rfl
      · have sum : ((last.moved rename).ip : Int) + displacement = rename target := by
          rw [← leads, ← stays]
          rfl
        have bounds : (0 : Int) ≤ rename target ∧
            (rename target : Int) < job.routine.code.size := by omega
        simp only [equal, ne_eq, not_false_eq_true, if_true, bind_apply, get_apply, sum, bounds,
          and_self, Int.toNat_natCast]
        rfl

section

variable {program : Program} {forms : Array Opcode} {job : Job} {rename : Nat → Nat}

theorem step_moved (settled : Settled program forms)
    (code : job.routine.code = program.bytes forms (layout forms))
    (place : ∀ position, position ≤ program.size → rename position = offsetAt forms position)
    {frame : Frame} (inside : frame.ip ≤ program.size) :
    Machine.step job (frame.moved rename) = movedResult rename (program.step job frame) := by
  have size : job.routine.code.size = offsetAt forms program.size := by
    rw [code, size_bytes, settled.size]
  rcases Nat.lt_or_eq_of_le inside with within | last
  · obtain ⟨instr, opcode, present, chosen, formOf⟩ := settled.exists_form within
    have decoded := settled.decodeAt? chosen
    rw [← code, ← place _ inside] at decoded
    have next : rename (frame.ip + 1) = rename frame.ip + opcode.size := by
      rw [place _ within, place _ inside, offsetAt_succ chosen]
    let after : Frame := { frame with ip := frame.ip + 1, steps := frame.steps + 1 }
    have started : Machine.step job (frame.moved rename) = execute job opcode
        ((opcode.immediate.read (program.immediate (layout forms) frame.ip)).getD 0)
        (after.moved rename) := by
      refine (step_of_decodeAt? decoded).trans (congrArg _ ?_)
      simp only [Decoded.nextOffset, Decoded.size, ← next]
      rfl
    rw [started, step_of_instr present]
    by_cases straight : instr.op = .branchNe
    · have leads (target : Nat) (goes : instr.operand = .target target)
          (inside : target < program.size) :
          (rename after.ip : Int) + program.displacement (layout forms) frame.ip =
              rename target ∧ rename target < job.routine.code.size := by
        rw [place _ within, place _ (Nat.le_of_lt inside), size]
        exact ⟨settled.displacement present goes inside,
          offsetAt_lt inside (Nat.le_of_eq settled.size.symm)⟩
      rw [immediate_of_operand present]
      cases formOf with
      | branchNeShort inside | branchNe inside =>
        obtain ⟨sum, bound⟩ := leads _ rfl inside
        exact branchNe_moved sum bound
      | _ => cases straight
    · rw [execute_eq_perform formOf straight present]
      exact (uniform_perform formOf straight).moved job rename after
  · -- Past the last instruction both run out of code.
    have outside : job.routine.code.size ≤ (frame.moved rename).ip := by
      rw [size, ← last, ← place _ inside]
      exact Nat.le_refl _
    rw [Machine.step_of_outside outside, step_of_outside (Nat.le_of_eq last.symm)]
    rfl

theorem ip_le_of_step (settled : Settled program forms) {frame next : Frame} {answer : Option Bool}
    (inside : frame.ip ≤ program.size) (taken : program.step job frame = .ok answer next) :
    next.ip ≤ program.size := by
  rcases Nat.lt_or_eq_of_le inside with within | last
  · obtain ⟨instr, opcode, present, -, formOf⟩ := settled.exists_form within
    rw [step_of_instr present] at taken
    by_cases straight : instr.op = .branchNe
    · cases formOf with
      | branchNeShort bound | branchNe bound =>
        obtain ⟨right, middle, left, popped, first, second, -, rfl⟩ :=
          Instr.exists_popInt_of_branchNe taken
        split
        · rw [uniform_popInt.ip_eq job second, uniform_popInt.ip_eq job first]
          exact within
        · exact Nat.le_of_lt bound
      | _ => cases straight
    · rw [(uniform_perform formOf straight).ip_eq job taken]
      exact within
  · rw [step_of_outside (Nat.le_of_eq last.symm)] at taken
    cases taken

theorem frameAfter_moved (settled : Settled program forms)
    (code : job.routine.code = program.bytes forms (layout forms))
    (place : ∀ position, position ≤ program.size → rename position = offsetAt forms position)
    (first : Frame) (inside : first.ip ≤ program.size) (count : Nat) :
    frameAfter (Machine.step job) count (first.moved rename) =
      (frameAfter (program.step job) count first).map (Frame.moved rename) := by
  induction count generalizing first with
  | zero => rfl
  | succ count ih =>
    rw [frameAfter, frameAfter, step_moved settled code place inside]
    cases taken : program.step job first with
    | error fault last => rfl
    | ok answer next =>
      cases answer with
      | some found => rfl
      | none => exact ih next (ip_le_of_step settled inside taken)

theorem loop_moved (settled : Settled program forms)
    (code : job.routine.code = program.bytes forms (layout forms))
    (place : ∀ position, position ≤ program.size → rename position = offsetAt forms position)
    (first : Frame) (inside : first.ip ≤ program.size) (limit budget : Nat) :
    loop (Machine.step job) limit budget (first.moved rename) =
      ((loop (program.step job) limit budget first).1,
        (loop (program.step job) limit budget first).2.moved rename) := by
  induction budget generalizing first with
  | zero => rfl
  | succ budget ih =>
    rw [loop, loop, step_moved settled code place inside]
    cases taken : program.step job first with
    | error fault last => rfl
    | ok answer next =>
      cases answer with
      | some found => rfl
      | none => exact ih next (ip_le_of_step settled inside taken)

theorem ip_le_of_frameAfter (settled : Settled program forms) {first last : Frame} {count : Nat}
    (inside : first.ip ≤ program.size) (h : frameAfter (program.step job) count first = some last) :
    last.ip ≤ program.size :=
  frameAfter_invariant (fun _ _ inside taken => ip_le_of_step settled inside taken) inside h

theorem fault_of_step (settled : Settled program forms) {frame last : Frame} {fault : Fault}
    (inside : frame.ip ≤ program.size) (failed : program.step job frame = .error fault last) :
    fault = .outOfCode ∧ frame.ip = program.size ∨ fault.Ordinary ∨ fault = .stackUnderflow ∨
      fault = .stackOverflow := by
  rcases Nat.lt_or_eq_of_le inside with within | ended
  · obtain ⟨instr, opcode, present, -, formOf⟩ := settled.exists_form within
    rw [step_of_instr present] at failed
    rcases (balanced_perform formOf job).error failed with ordinary | ⟨under, _⟩ | ⟨overflow, _⟩
    · exact .inr (.inl ordinary)
    · exact .inr (.inr (.inl under))
    · exact .inr (.inr (.inr overflow))
  · rw [step_of_outside (Nat.le_of_eq ended.symm)] at failed
    cases failed
    exact .inl ⟨rfl, ended⟩

end

/-- The layout behind an accepted encoding, and the places it gives to the instructions. -/
theorem place_of_encode {program : Program} {maxPasses : Nat} {encoding : Encoding}
    (h : program.encode maxPasses = .ok encoding) :
    ∃ forms, Settled program forms ∧ encoding.code = program.bytes forms (layout forms) ∧
      encoding.offsets.size = program.size ∧
      ∀ position, position ≤ program.size → encoding.place position = offsetAt forms position := by
  obtain ⟨forms, settled, code, offsets⟩ := settled_of_encode h
  refine ⟨forms, settled, code, ?_, ?_⟩
  · rw [offsets, Array.size_pop, size_layout, settled.size, Nat.add_sub_cancel]
  · intro position inside
    rw [← settled.size] at inside
    rw [Encoding.place, offsets, Array.getElem?_pop, size_layout, Nat.add_sub_cancel]
    rcases Nat.lt_or_eq_of_le inside with within | rfl
    · rw [if_pos within, layout_getElem? inside, Option.getD_some]
    · rw [if_neg (Nat.lt_irrefl _), Option.getD_none, code, size_bytes]

section

variable {program : Program} {maxPasses : Nat} {encoding : Encoding} (point : HookPoint)
  (handlers : Array Handler) (slotCount maxDepth : Nat) (settings : MachineSettings)
  (key : String) (out : Option Value) (args : List Value)

private theorem start_moved (encoded : program.encode maxPasses = .ok encoding)
    (routine : Routine) :
    (Frame.start routine out).moved encoding.place = Frame.start routine out := by
  obtain ⟨forms, settled, -, -, place⟩ := place_of_encode encoded
  have zero : encoding.place 0 = 0 := place 0 (Nat.zero_le _)
  show { Frame.start routine out with ip := encoding.place 0 } = Frame.start routine out
  rw [zero]
  rfl

theorem frameAfter_of_encode (encoded : program.encode maxPasses = .ok encoding) (count : Nat) :
    let routine := Routine.ofEncoding point encoding handlers slotCount maxDepth
    let job := Job.of routine settings key args
    frameAfter (Machine.step job) count (.start routine out) =
      (frameAfter (program.step job) count (.start routine out)).map
        (Frame.moved encoding.place) := by
  intro routine job
  obtain ⟨forms, settled, code, -, place⟩ := place_of_encode encoded
  have code : job.routine.code = program.bytes forms (layout forms) := code
  have moved := frameAfter_moved settled code place (.start routine out) (Nat.zero_le _) count
  rwa [start_moved out encoded] at moved

theorem ip_le_of_encode (encoded : program.encode maxPasses = .ok encoding) {job : Job}
    {routine : Routine} {count : Nat} {frame : Frame}
    (reached : frameAfter (program.step job) count (.start routine out) = some frame) :
    frame.ip ≤ program.size := by
  obtain ⟨forms, settled, -⟩ := place_of_encode encoded
  exact ip_le_of_frameAfter settled (Nat.zero_le _) reached

theorem run_of_encode (encoded : program.encode maxPasses = .ok encoding) :
    let routine := Routine.ofEncoding point encoding handlers slotCount maxDepth
    let ran := program.run (.of routine settings key args) settings.maxSteps (.start routine out)
    Machine.run routine settings key out args = (ran.1, ran.2.moved encoding.place) := by
  intro routine ran
  obtain ⟨forms, settled, code, -, place⟩ := place_of_encode encoded
  have code : (Job.of routine settings key args).routine.code =
      program.bytes forms (layout forms) := code
  have moved := loop_moved settled code place (.start routine out) (Nat.zero_le _)
    settings.maxSteps settings.maxSteps
  rwa [start_moved out encoded] at moved

theorem fault_of_run (encoded : program.encode maxPasses = .ok encoding) {job : Job}
    {routine : Routine} {limit : Nat} {fault : Fault}
    (failed : (program.run job limit (.start routine out)).1 = .error fault) :
    fault = .stepLimit limit ∨
      (fault = .outOfCode ∧ ∃ count < limit, ∃ frame,
        frameAfter (program.step job) count (.start routine out) = some frame ∧
          frame.ip = program.size) ∨
      fault.Ordinary ∨ fault = .stackUnderflow ∨ fault = .stackOverflow := by
  obtain ⟨forms, settled, -⟩ := place_of_encode encoded
  have ends := ends_loop (program.step job) limit limit (.start routine out)
  rw [Program.run] at failed
  generalize loop (program.step job) limit limit (.start routine out) = outcome at failed ends
  cases ends with
  | limit =>
    cases failed
    exact .inl rfl
  | answer => cases failed
  | fault within reached faulted =>
    cases failed
    have inside := ip_le_of_encode out encoded reached
    rcases fault_of_step settled inside faulted with ⟨outOfCode, ended⟩ | other
    · exact .inr (.inl ⟨outOfCode, _, within, _, reached, ended⟩)
    · exact .inr (.inr other)

end

/-- The byte code of a program runs in lock-step with the program. After every number of steps both
go on with the same frame but for the pointer. Each run ends with the answer or the fault of its
first step that gives one, or at its limit, and both end alike. A fault comes from the code only
where the run has passed the last instruction. -/
theorem lockstep {program : Program} {maxPasses : Nat} {encoding : Encoding}
    (encoded : program.encode maxPasses = .ok encoding) (point : HookPoint)
    (handlers : Array Handler) (slotCount maxDepth : Nat) (settings : MachineSettings)
    (key : String) (out : Option Value) (args : List Value) :
    let routine := Routine.ofEncoding point encoding handlers slotCount maxDepth
    let job := Job.of routine settings key args
    let first := Frame.start routine out
    let ran := Machine.run routine settings key out args
    encoding.offsets.size = program.size ∧
      (∀ count, frameAfter (Machine.step job) count first =
        (frameAfter (program.step job) count first).map (Frame.moved encoding.place)) ∧
      (∀ count frame, frameAfter (program.step job) count first = some frame →
        frame.ip ≤ program.size) ∧
      Ends (Machine.step job) settings.maxSteps settings.maxSteps first ran ∧
      Ends (program.step job) settings.maxSteps settings.maxSteps first
        (program.run job settings.maxSteps first) ∧
      ran.1 = (program.run job settings.maxSteps first).1 ∧
      ran.2 = (program.run job settings.maxSteps first).2.moved encoding.place ∧
      (∀ byte, ran.1 ≠ .error (.invalidOpcode byte)) ∧
      (∀ tag, ran.1 ≠ .error (.invalidTypeTag tag)) ∧
      (ran.1 = .error .outOfCode → ∃ count < settings.maxSteps, ∃ frame,
        frameAfter (program.step job) count first = some frame ∧ frame.ip = program.size) := by
  intro routine job first ran
  have same : ran = ((program.run job settings.maxSteps first).1,
      (program.run job settings.maxSteps first).2.moved encoding.place) :=
    run_of_encode point handlers slotCount maxDepth settings key out args encoded
  have also {fault : Fault} (failed : ran.1 = .error fault) :
      (program.run job settings.maxSteps first).1 = .error fault := by rw [← failed, same]
  obtain ⟨forms, -, -, size, -⟩ := place_of_encode encoded
  refine ⟨size, ?_, ?_, ends_loop _ _ _ _, ends_loop _ _ _ _, by rw [same], by rw [same],
    ?_, ?_, ?_⟩
  · exact frameAfter_of_encode point handlers slotCount maxDepth settings key out args encoded
  · intro count frame reached
    exact ip_le_of_encode out encoded reached
  · intro byte failed
    rcases fault_of_run out encoded (also failed) with h | ⟨h, -⟩ | h | h | h <;> cases h
  · intro tag failed
    rcases fault_of_run out encoded (also failed) with h | ⟨h, -⟩ | h | h | h <;> cases h
  · intro failed
    rcases fault_of_run out encoded (also failed) with h | ⟨-, reached⟩ | h | h | h
    · cases h
    · exact reached
    all_goals cases h

/-- Counts down from two to zero before it answers; its branch goes back. -/
def countdown : Program :=
  #[⟨.loadConst, .const 2⟩, ⟨.storeLocal, .slot 0⟩, ⟨.loadLocal, .slot 0⟩,
    ⟨.loadConst, .const (-1)⟩, .plain .add, ⟨.storeLocal, .slot 0⟩, ⟨.loadLocal, .slot 0⟩,
    ⟨.loadConst, .const 0⟩, ⟨.branchNe, .target 2⟩, ⟨.loadConst, .const 1⟩, .plain .ret]

def countdown.encoding : Encoding :=
  ⟨#[0x22, 0x13, 0x10, 0x29, 0xff, 0x30, 0x13, 0x10, 0x20, 0x40, 0xf7, 0x21, 0x42],
    #[0, 1, 2, 3, 5, 6, 7, 8, 9, 11, 12], ⟨1, 1, 0, 3⟩⟩

theorem lockstep_countdown :
    countdown.encode 1 = .ok countdown.encoding ∧
      let routine := Routine.ofEncoding .standard countdown.encoding #[] 1 2
      let ran := Machine.run routine default "" (some (.long 7)) []
      ran.1 = .ok true ∧ ran.2.out = some (.long 7) ∧ ran.2.locals = #[0] ∧ ran.2.steps = 18 ∧
        ran.2.ip = 13 := by
  have encoded : countdown.encode 1 = .ok countdown.encoding := by decide +kernel
  obtain ⟨-, -, -, -, -, answer, frame, -⟩ :=
    lockstep encoded .standard #[] 1 2 default "" (some (.long 7)) []
  refine ⟨encoded, answer.trans (by decide +kernel), ?_⟩
  simp only [frame, Frame.moved]
  exact ⟨rfl, by decide +kernel⟩

end Program

end TrieDispatch
