import TrieDispatch.Proofs.Machine.Balance
import TrieDispatch.Proofs.Program.Blocks
import TrieDispatch.Proofs.Program.Semantics

/-! # Tracing instructions -/

namespace TrieDispatch.Program

open Machine

def Leads (program : Program) (job : Job) (first last : Frame) : Prop :=
  ∃ count, frameAfter (program.step job) count first = some last

variable {program : Program} {job : Job} {first middle last : Frame}

theorem Leads.refl (frame : Frame) : program.Leads job frame frame := ⟨0, rfl⟩

theorem Leads.trans (h : program.Leads job first middle) (h' : program.Leads job middle last) :
    program.Leads job first last := by
  obtain ⟨count, reached⟩ := h
  obtain ⟨count', reached'⟩ := h'
  exact ⟨count + count', frameAfter_trans reached reached'⟩

section

variable {ip steps : Nat} {stack : Array Cell} {locals : Array Int} {out : Option Value}
  {calls : Array Invocation} {cell : Cell} {slot : UInt16}

theorem leads_of_perform {instr : Instr} (present : program[ip]? = some instr)
    (done : instr.perform job ⟨ip + 1, stack, locals, out, calls, steps + 1⟩ = .ok none last) :
    program.Leads job ⟨ip, stack, locals, out, calls, steps⟩ last := by
  refine ⟨1, ?_⟩
  rw [frameAfter_succ_of_ok ((step_of_instr present).trans done), frameAfter_zero]

theorem leads_push {instr : Instr} (present : program[ip]? = some instr)
    (pushes : instr.perform job = do push job cell; return none) (fits : stack.size < job.room) :
    program.Leads job ⟨ip, stack, locals, out, calls, steps⟩
      ⟨ip + 1, stack.push cell, locals, out, calls, steps + 1⟩ := by
  apply leads_of_perform present
  simp only [pushes, bind_apply, push, fits, if_true, pure_apply]

theorem leads_loadLocal {number : Int} (present : program[ip]? = some ⟨.loadLocal, .slot slot⟩)
    (known : locals[slot.toNat]? = some number) (fits : stack.size < job.room) :
    program.Leads job ⟨ip, stack, locals, out, calls, steps⟩
      ⟨ip + 1, stack.push (.int number), locals, out, calls, steps + 1⟩ := by
  apply leads_of_perform present
  simp only [Instr.perform, loadLocal, bind_apply, get_apply, known, push, fits, if_true,
    pure_apply]

theorem leads_storeLocal {number : Int} (present : program[ip]? = some ⟨.storeLocal, .slot slot⟩)
    (inside : slot.toNat < locals.size) :
    program.Leads job ⟨ip, stack.push (.int number), locals, out, calls, steps⟩
      ⟨ip + 1, stack, locals.setIfInBounds slot.toNat number, out, calls, steps + 1⟩ := by
  apply leads_of_perform present
  simp only [Instr.perform, storeLocal, bind_apply, get_apply, popInt_push, inside, if_true,
    modify_apply, pure_apply]

theorem leads_keyLength (present : program[ip]? = some (.plain .keyLength))
    (fits : stack.size < job.room) :
    program.Leads job ⟨ip, stack.push .key, locals, out, calls, steps⟩
      ⟨ip + 1, stack.push (.int job.key.size), locals, out, calls, steps + 1⟩ := by
  apply leads_of_perform present
  simp only [Instr.plain, Instr.perform, keyLength, bind_apply, popKey_push, push, fits, if_true,
    pure_apply]

theorem leads_keyCharAt {position : Int} (present : program[ip]? = some (.plain .keyCharAt))
    (fits : stack.size < job.room) :
    program.Leads job ⟨ip, (stack.push .key).push (.int position), locals, out, calls, steps⟩
      ⟨ip + 1, stack.push (.int ((elementAt? job.key position).elim keyEnd fun c => c.toNat)),
        locals, out, calls, steps + 1⟩ := by
  apply leads_of_perform present
  simp only [Instr.plain, Instr.perform, keyCharAt, bind_apply, popInt_push, popKey_push, push,
    fits, if_true, pure_apply]

theorem leads_loadElem {index : Int} (present : program[ip]? = some (.plain .loadElem))
    (fits : stack.size < job.room) :
    program.Leads job ⟨ip, (stack.push .args).push (.int index), locals, out, calls, steps⟩
      ⟨ip + 1, stack.push (.value ((elementAt? job.args index).getD .null)), locals, out, calls,
        steps + 1⟩ := by
  apply leads_of_perform present
  simp only [Instr.plain, Instr.perform, loadElem, bind_apply, popInt_push, popArgs_push, push,
    fits, if_true, pure_apply]

theorem leads_add {left right : Int} (present : program[ip]? = some (.plain .add))
    (small : fitsSigned 64 (left + right)) (fits : stack.size < job.room) :
    program.Leads job ⟨ip, (stack.push (.int left)).push (.int right), locals, out, calls, steps⟩
      ⟨ip + 1, stack.push (.int (left + right)), locals, out, calls, steps + 1⟩ := by
  apply leads_of_perform present
  simp only [Instr.plain, Instr.perform, add, bind_apply, popInt_push, small, push, fits, if_true,
    pure_apply]

theorem leads_branchTo {left right : Int} {target : Nat}
    (present : program[ip]? = some (.branchTo target)) :
    program.Leads job ⟨ip, (stack.push (.int left)).push (.int right), locals, out, calls, steps⟩
      ⟨if left = right then ip + 1 else target, stack, locals, out, calls, steps + 1⟩ := by
  refine leads_of_perform present ((Instr.perform_branchNe popInt_push popInt_push target).trans ?_)
  split <;> rfl

theorem leads_castTo {kind : ParamKind} {value : Value}
    (present : program[ip]? = some ⟨.castTo, .kind kind⟩) (fits : stack.size < job.room) :
    program.Leads job ⟨ip, stack.push (.value value), locals, out, calls, steps⟩
      ⟨ip + 1, stack.push (.value (kind.narrow value)), locals, out, calls, steps + 1⟩ := by
  apply leads_of_perform present
  simp only [Instr.perform, bind_apply, popValue_push, push, fits, if_true, pure_apply]

theorem leads_clearOut (present : program[ip]? = some (.plain .clearOut)) :
    program.Leads job ⟨ip, stack, locals, out, calls, steps⟩
      ⟨ip + 1, stack, locals, none, calls, steps + 1⟩ :=
  leads_of_perform present rfl

/-- The result becomes the output; without one the output stays. -/
theorem leads_storeOut {result : Option Value} (present : program[ip]? = some (.plain .storeOut)) :
    program.Leads job ⟨ip, stack.push (result.elim .void .value), locals, out, calls, steps⟩
      ⟨ip + 1, stack, locals, result.orElse fun _ => out, calls, steps + 1⟩ := by
  apply leads_of_perform present
  cases result with
  | none =>
    simp only [Instr.plain, Instr.perform, storeOut, bind_apply, Option.elim_none, pop_push,
      pure_apply, Option.orElse]
  | some value =>
    simp only [Instr.plain, Instr.perform, storeOut, bind_apply, Option.elim_some, pop_push,
      modify_apply, pure_apply, Option.orElse]

theorem valuesOf_map (values : List Value) : valuesOf (values.map .value) = .ok values := by
  induction values with
  | nil => rfl
  | cons value values ih =>
    rw [List.map_cons, valuesOf, ih]
    rfl

theorem leads_callHandler {index : UInt16} {handler : Handler} {values : List Value}
    (present : program[ip]? = some ⟨.callHandler, .handler index⟩)
    (known : job.routine.handlers[index.toNat]? = some handler)
    (enough : values.length = handler.arity) (fits : stack.size < job.room) :
    program.Leads job ⟨ip, stack ++ (values.map Cell.value).toArray, locals, out, calls, steps⟩
      ⟨ip + 1, stack.push ((handler.body values).elim .void .value), locals, out,
        calls.push ⟨handler, values⟩, steps + 1⟩ := by
  apply leads_of_perform present
  have size : (stack ++ (values.map Cell.value).toArray).size = stack.size + handler.arity := by
    simp [enough]
  have above : ((stack ++ (values.map Cell.value).toArray).extract stack.size
      (stack.size + handler.arity)).toList = values.map .value := by
    rw [← enough]
    simp [List.take_of_length_le]
  have below : (stack ++ (values.map Cell.value).toArray).take stack.size = stack := by simp
  let frame : Frame :=
    ⟨ip + 1, stack ++ (values.map Cell.value).toArray, locals, out, calls, steps + 1⟩
  have called : callKnown handler job frame = _ := callKnown_of_enough (by simp [frame, enough])
  simp only [frame, size, Nat.add_sub_cancel, above, below, valuesOf_map] at called
  simp only [Instr.perform, callHandler_of_some known, bind_apply, called, push, fits, if_true,
    pure_apply]

theorem step_ret {number : Int} (present : program[ip]? = some (.plain .ret)) :
    program.step job ⟨ip, stack.push (.int number), locals, out, calls, steps⟩ =
      .ok (some (number ≠ 0 : Bool)) ⟨ip + 1, stack, locals, out, calls, steps + 1⟩ := by
  apply (step_of_instr present).trans
  simp only [Instr.plain, Instr.perform, bind_apply, popInt_push, pure_apply]

end

end TrieDispatch.Program
