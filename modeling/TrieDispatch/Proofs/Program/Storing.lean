import Mathlib.Data.List.Chain
import TrieDispatch.Proofs.Machine.Frames
import TrieDispatch.Proofs.Program.Resolving
import TrieDispatch.Proofs.Program.StackSafety

/-! # Storing results -/

namespace TrieDispatch

open Machine

namespace Machine

variable {job : Job} {frame next : Frame}

theorem exists_call_of_callHandler {index : Nat} {done : Unit}
    (taken : callHandler job index frame = .ok done next) :
    ∃ invocation : Invocation, next.out = frame.out ∧ next.calls = frame.calls.push invocation ∧
      next.stack.back? = some (invocation.result.elim .void .value) := by
  cases known : job.routine.handler? index with
  | none =>
    rw [callHandler_of_none known] at taken
    cases taken
  | some handler =>
    rw [callHandler_of_some known] at taken
    rcases Nat.lt_or_ge frame.stack.size handler.arity with short | enough
    · rw [callKnown_of_short short] at taken
      cases taken
    · rw [callKnown_of_enough enough] at taken
      split at taken
      next => cases taken
      next args _ =>
        rw [push] at taken
        split at taken
        next =>
          cases taken
          exact ⟨⟨handler, args⟩, rfl, rfl, Array.back?_push⟩
        next => cases taken

theorem storeOut_of_back {result : Option Value}
    (top : frame.stack.back? = some (result.elim .void .value)) :
    storeOut frame = .ok () { frame with
      stack := frame.stack.pop
      out := result.orElse fun _ => frame.out } := by
  cases result with
  | none =>
    simp only [storeOut, bind_apply, pop, top, Option.elim_none, pure_apply, Option.orElse]
  | some value =>
    simp only [storeOut, bind_apply, pop, top, Option.elim_some, modify_apply, Option.orElse]

end Machine

namespace Program

theorem mild_perform {relates : Frame → Frame → Prop} (mild : Mild relates) {length : Nat}
    {instr : Instr} {opcode : Opcode} (h : FormOf length instr opcode)
    (other : instr.op ∉ [Op.callHandler, .storeOut, .clearOut]) (job : Job) :
    Keeps relates (instr.perform job) := by
  cases h with
  | loadKey | loadArgs | pushDigit | pushSmall | pushInt => exact (mild.push job _).answer _
  | keyLength => exact (mild.keyLength job).answer _
  | keyCharAt => exact (mild.keyCharAt job).answer _
  | loadElem => exact (mild.loadElem job).answer _
  | add => exact (mild.add job).answer _
  | ret => exact mild.bind mild.popInt fun _ => mild.pure _
  | castTo => exact mild.bind mild.popValue fun _ => (mild.push job _).answer _
  | loadLocal0 | loadLocal1 | loadLocal => exact (mild.loadLocal job _).answer _
  | storeLocal0 | storeLocal1 | storeLocal => exact (mild.storeLocal _).answer _
  | branchNeShort | branchNe =>
    exact mild.bind mild.popInt fun _ => mild.bind mild.popInt fun _ =>
      keeps_ite ((mild.moveTo _).answer _) (mild.pure none)
  | callHandler | storeOut | clearOut => simp at other

theorem lenient_perform {relates : Frame → Frame → Prop} (lenient : Lenient relates) {length : Nat}
    {instr : Instr} {opcode : Opcode} (h : FormOf length instr opcode) (job : Job) :
    Keeps relates (instr.perform job) := by
  by_cases other : instr.op ∉ [Op.callHandler, .storeOut, .clearOut]
  · exact mild_perform lenient.toMild h other job
  · cases h with
    | callHandler index => exact (lenient.callHandler job _).answer _
    | storeOut => exact lenient.storeOut.answer _
    | clearOut => exact lenient.clearOut.answer _
    | _ => exact absurd (by simp) other

def FollowsCall (before after : Instr) : Prop :=
  after = .plain .storeOut → ∃ index, before = ⟨.callHandler, .handler index⟩

/-- Every result that the block stores is that of a call just before. -/
def StoresResults (block : List Instr) : Prop :=
  block.head? ≠ some (.plain .storeOut) ∧ block.IsChain FollowsCall

variable {first second block : List Instr}

theorem StoresResults.append (h : StoresResults first) (h' : StoresResults second) :
    StoresResults (first ++ second) := by
  constructor
  · cases first with
    | nil => exact h'.1
    | cons => exact h.1
  · refine List.isChain_append.2 ⟨h.2, h'.2, ?_⟩
    rintro before - after begins rfl
    exact absurd begins h'.1

theorem storesResults_of_not_mem (h : .plain .storeOut ∉ block) : StoresResults block := by
  constructor
  · intro begins
    exact h (List.mem_of_head? begins)
  · apply List.isChain_iff_getElem.2
    intro index inside stores
    exact absurd (stores ▸ List.getElem_mem inside) h

theorem storesResults_callHandler (handler : Handler) (position : Nat) :
    StoresResults (callHandler handler position) := by
  refine .append (storesResults_of_not_mem ?_) ⟨?_, ?_⟩
  · simp [loadArgument, Instr.plain]
  · simp [Instr.plain]
  · exact .cons_cons (fun _ => ⟨_, rfl⟩) (.singleton _)

end Program

namespace Forest

open Program

variable {directory : Directory} {forest : Forest}

theorem storesResults_nameCode (directory : Directory) (epilogue : Nat) (children : Forest)
    (name : Option String) (start : Nat) :
    StoresResults (nameCode directory epilogue children name start) := by
  cases known : name.bind directory.located? with
  | none =>
    rw [nameCode_of_none _ _ known]
    exact storesResults_of_not_mem List.not_mem_nil
  | some entry =>
    obtain ⟨position, handler⟩ := entry
    rw [nameCode_of_entry _ _ known]
    refine .append (storesResults_of_not_mem ?_) (.append (storesResults_callHandler _ _)
      (storesResults_of_not_mem ?_))
    · simp [compareLength, Instr.plain, Instr.branchTo]
    · simp [answer, Instr.plain]

theorem storesResults_code (directory : Directory) (epilogue : Nat) (forest : Forest)
    (start : Nat) : StoresResults (forest.code directory epilogue start) := by
  induction forest generalizing start with
  | nil => exact storesResults_of_not_mem List.not_mem_nil
  | cons label id name children siblings below beside =>
    rw [code_cons]
    refine .append (storesResults_of_not_mem ?_) (.append (storesResults_of_not_mem ?_)
      (.append (storesResults_nameCode _ _ _ _ _) (.append (below _) (beside _))))
    · simp [compareLabel, Instr.plain, Instr.branchTo]
    · simp [advance, Instr.plain]

theorem storesResults_program (directory : Directory) (forest : Forest) :
    StoresResults (forest.program directory).toList := by
  refine .append (storesResults_of_not_mem ?_) (.append (storesResults_code _ _ _ _)
    (storesResults_of_not_mem ?_))
  · simp [prologue, Instr.plain]
  · simp [answer, Instr.plain]

/-- A result is stored only where the instruction before is its call. -/
theorem call_of_leadsTo (callable : directory.Callable) {position target : Nat} {instr : Instr}
    (present : (forest.program directory)[position]? = some instr)
    (leads : instr.LeadsTo position target)
    (stores : (forest.program directory)[target]? = some (.plain .storeOut)) :
    ∃ index, instr = ⟨.callHandler, .handler index⟩ := by
  cases leads with
  | next =>
    rw [← Array.getElem?_toList, List.getElem?_eq_some_iff] at present stores
    obtain ⟨_, rfl⟩ := present
    obtain ⟨inside, stores⟩ := stores
    exact List.isChain_iff_getElem.1 (storesResults_program directory forest).2 position inside
      stores
  | target =>
    -- A branch is taken with an empty stack, from which nothing could be stored.
    have after := levelAt_succ stores (goesOn_of_branchTo callable present).after
    have level := isSome_levelAt (level_program callable forest).1 (target + 1)
    rw [after] at level
    simp [Instr.plain, Instr.stackEffect] at level

variable {job : Job} {forms : Array Opcode} {frame next : Frame}

/-- The output is empty or comes from a call, and what is to be stored next comes from a call. -/
structure Supplied (program : Program) (frame : Frame) : Prop where
  out : frame.out = none ∨ ∃ invocation ∈ frame.calls, frame.out = invocation.result
  top : program[frame.ip]? = some (.plain .storeOut) → ∃ invocation ∈ frame.calls,
    frame.stack.back? = some (invocation.result.elim .void .value)

theorem supplied_of_step (callable : directory.Callable)
    (lowered : Lowered (forest.program directory) forms)
    (supplied : Supplied (forest.program directory) frame)
    (taken : (forest.program directory).step job frame = .ok none next) :
    Supplied (forest.program directory) next := by
  rcases Nat.lt_or_ge frame.ip (forest.program directory).size with inside | outside
  · obtain ⟨instr, opcode, present, -, formOf⟩ := lowered.exists_form inside
    have afterCall := call_of_leadsTo callable present (leadsTo_of_step lowered present taken)
    have quiet := mild_perform mild_sameRecord formOf
    rw [step_of_instr present] at taken
    cases formOf with
    | callHandler index =>
      obtain ⟨_, _, called, answered⟩ := bind_eq_ok taken
      cases answered
      obtain ⟨invocation, out, calls, top⟩ := exists_call_of_callHandler called
      constructor
      · rw [out, calls]
        exact supplied.out.imp_right fun ⟨earlier, member, same⟩ =>
          ⟨earlier, Array.mem_push_of_mem _ member, same⟩
      · rw [calls]
        exact fun _ => ⟨invocation, Array.mem_push_self, top⟩
    | storeOut =>
      obtain ⟨invocation, member, top⟩ := supplied.top present
      obtain ⟨_, _, stored, answered⟩ := bind_eq_ok taken
      cases answered
      have top' : ({ frame with ip := frame.ip + 1, steps := frame.steps + 1 } :
          Frame).stack.back? = some (invocation.result.elim .void .value) := top
      cases (storeOut_of_back top').symm.trans stored
      constructor
      · cases result : invocation.result with
        | none => exact supplied.out
        | some value => exact .inr ⟨invocation, member, result.symm⟩
      · intro stores
        obtain ⟨index, impossible⟩ := afterCall stores
        cases impossible
    | clearOut =>
      cases taken
      refine ⟨.inl rfl, fun stores => ?_⟩
      obtain ⟨index, impossible⟩ := afterCall stores
      cases impossible
    | _ =>
      have same := quiet (by simp) job { frame with ip := frame.ip + 1, steps := frame.steps + 1 }
      rw [taken] at same
      obtain ⟨out, calls⟩ := same
      constructor
      · rw [show next.out = frame.out from out, show next.calls = frame.calls from calls]
        exact supplied.out
      · intro stores
        obtain ⟨index, impossible⟩ := afterCall stores
        cases impossible
  · rw [step_of_outside outside] at taken
    cases taken

/-- The first step forgets the output there was before. -/
theorem step_start (job : Job) (routine : Routine) (out : Option Value) :
    (forest.program directory).step job (.start routine out) =
      .ok none ⟨1, #[], Array.replicate routine.slotCount 0, none, #[], 1⟩ := by
  have clears : (forest.program directory)[(Frame.start routine out).ip]? =
      some (.plain .clearOut) := (contains_program directory forest).left.getElem? 0 rfl
  exact step_of_instr clears

theorem supplied_of_frameAfter (callable : directory.Callable)
    (lowered : Lowered (forest.program directory) forms) {routine : Routine} {out : Option Value}
    {count : Nat} (reached : frameAfter ((forest.program directory).step job) (count + 1)
      (.start routine out) = some frame) : Supplied (forest.program directory) frame := by
  rw [frameAfter_succ_of_ok (step_start job routine out)] at reached
  refine frameAfter_invariant (fun _ _ supplied taken =>
    supplied_of_step callable lowered supplied taken) ⟨.inl rfl, fun stores => ?_⟩ reached
  have loads := (contains_program directory forest).left.getElem? 1 rfl
  cases loads.symm.trans stores

end Forest

end TrieDispatch
