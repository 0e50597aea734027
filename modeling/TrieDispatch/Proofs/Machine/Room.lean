import TrieDispatch.Proofs.Machine.Balance
import TrieDispatch.Proofs.Machine.Decoded
import TrieDispatch.Proofs.Machine.Limits

/-! # Room on the stack -/

namespace TrieDispatch.Machine

variable {job : Job} {room : Nat}

theorem calls_callKnown_withRoom (handler : Handler) (job : Job) (room : Nat) (frame : Frame) :
    (left (callKnown handler (job.withRoom room) frame)).calls =
      (left (callKnown handler job frame)).calls := by
  rcases Nat.lt_or_ge frame.stack.size handler.arity with short | enough
  · rw [callKnown_of_short short, callKnown_of_short short]
  · rw [callKnown_of_enough enough, callKnown_of_enough enough]
    split
    next => rfl
    next => rw [(mild_sameRecord.push _ _ _).2, (mild_sameRecord.push _ _ _).2]

theorem calls_callHandler_withRoom (index : Nat) (job : Job) (room : Nat) (frame : Frame) :
    (left (callHandler (job.withRoom room) index frame)).calls =
      (left (callHandler job index frame)).calls := by
  cases known : job.routine.handler? index with
  | none =>
    have known' : (job.withRoom room).routine.handler? index = none := known
    rw [callHandler_of_none known, callHandler_of_none known']
  | some handler =>
    have known' : (job.withRoom room).routine.handler? index = some handler := known
    rw [callHandler_of_some known, callHandler_of_some known']
    exact calls_callKnown_withRoom handler job room frame

theorem calls_execute_withRoom (opcode : Opcode) (immediate : Int) (job : Job) (room : Nat)
    (frame : Frame) : (left (execute (job.withRoom room) opcode immediate frame)).calls =
      (left (execute job opcode immediate frame)).calls := by
  have silent {action : Job → Action Unit} (kept : ∀ job, Keeps SameRecord (action job)) :
      (left ((action (job.withRoom room) >>= fun _ => pure (none : Option Bool)) frame)).calls =
        (left ((action job >>= fun _ => pure (none : Option Bool)) frame)).calls := by
    rw [((kept _).answer _ frame).2, ((kept _).answer _ frame).2]
  cases opcode with
  | loadKey | loadArgs | pushDigit | pushSmall | pushInt =>
    exact silent fun job => mild_sameRecord.push job _
  | keyLength => exact silent mild_sameRecord.keyLength
  | keyCharAt => exact silent mild_sameRecord.keyCharAt
  | loadElem => exact silent mild_sameRecord.loadElem
  | loadLocal0 | loadLocal1 | loadLocal =>
    exact silent fun job => mild_sameRecord.loadLocal job _
  | add => exact silent mild_sameRecord.add
  | castTo => exact silent fun job => mild_sameRecord.castTo job _
  | callHandler =>
    simp only [execute, left_answer]
    exact calls_callHandler_withRoom _ job room frame
  | branchNeShort | branchNe => rfl
  | storeLocal0 | storeLocal1 | storeLocal | ret | storeOut | clearOut => rfl

/-- A step does the same with more room, or it overflows and has made the same calls. -/
theorem step_roomier (more : job.room ≤ room) (frame : Frame) :
    step (job.withRoom room) frame = step job frame ∨
      ∃ last, step job frame = .error .stackOverflow last ∧
        (left (step (job.withRoom room) frame)).calls = last.calls := by
  cases found : job.routine.code.decodeAt? frame.ip with
  | none =>
    have found' : (job.withRoom room).routine.code.decodeAt? frame.ip = none := found
    rw [step_of_undecoded found, step_of_undecoded found']
    exact .inl rfl
  | some decoded =>
    have found' : (job.withRoom room).routine.code.decodeAt? frame.ip = some decoded := found
    rw [step_of_decodeAt? found, step_of_decodeAt? found']
    cases branch : decoded.opcode.isBranch with
    | true =>
      rw [execute_of_isBranch branch, execute_of_isBranch branch]
      exact .inl rfl
    | false =>
      rcases (uniform_execute branch _).roomier more _ with same | ⟨last, overflow⟩
      · exact .inl same
      · refine .inr ⟨last, overflow, ?_⟩
        rw [calls_execute_withRoom, overflow]
        rfl

/-- A run with more room goes the same way, or the stack overflows with less and the calls made so
far are the first ones of the other run. -/
theorem loop_roomier (more : job.room ≤ room) (limit budget : Nat) (first : Frame) :
    loop (step (job.withRoom room)) limit budget first = loop (step job) limit budget first ∨
      ∃ last, loop (step job) limit budget first = (.error .stackOverflow, last) ∧
        MoreCalls last (loop (step (job.withRoom room)) limit budget first).2 := by
  induction budget generalizing first with
  | zero => exact .inl rfl
  | succ budget ih =>
    rcases step_roomier more first with same | ⟨last, overflow, calls⟩
    · rw [loop, loop, same]
      split
      next => exact ih _
      next => exact .inl rfl
      next => exact .inl rfl
    · -- With less room the run ends here, and with more it can only add calls.
      refine .inr ⟨last, by rw [loop, overflow], ?_⟩
      rw [MoreCalls, ← calls]
      exact keeps_loop_succ tolerant_moreCalls.toMild (tolerant_moreCalls.step _) limit budget first

end TrieDispatch.Machine
