import TrieDispatch.Proofs.Machine.Frames
import TrieDispatch.Proofs.Machine.Runs

namespace TrieDispatch.Machine

variable {step : Action (Option Bool)} {first frame last next : Frame} {limit count : Nat}

/-- The frames of a run that may take `limit` steps. -/
inductive Visits (step : Action (Option Bool)) (limit : Nat) (first : Frame) : Frame → Prop
  | start : Visits step limit first first
  | step {count : Nat} {frame : Frame} : count < limit →
      frameAfter step count first = some frame → Visits step limit first (left (step frame))

theorem left_of_ok {α : Type} {action : Action α} {a : α} (taken : action frame = .ok a next) :
    left (action frame) = next := by
  rw [taken]
  rfl

theorem left_of_error {α : Type} {action : Action α} {fault : Fault}
    (failed : action frame = .error fault last) : left (action frame) = last := by
  rw [failed]
  rfl

theorem frameAfter_succ_last : frameAfter step (count + 1) first = some last ↔
    ∃ frame, frameAfter step count first = some frame ∧ step frame = .ok none last := by
  rw [frameAfter_add, Option.bind_eq_some_iff]
  simp only [frameAfter_succ_eq_some_iff, frameAfter_zero, Option.some.injEq, exists_eq_right]

theorem visits_of_frameAfter (within : count ≤ limit)
    (reached : frameAfter step count first = some frame) : Visits step limit first frame := by
  cases count with
  | zero =>
    cases reached
    exact .start
  | succ count =>
    obtain ⟨before, earlier, taken⟩ := frameAfter_succ_last.1 reached
    rw [← left_of_ok taken]
    exact .step within earlier

theorem visits_loop (step : Action (Option Bool)) (limit : Nat) (first : Frame) :
    Visits step limit first (loop step limit limit first).2 := by
  have ends := ends_loop step limit limit first
  generalize loop step limit limit first = outcome at ends
  cases ends with
  | limit reached => exact visits_of_frameAfter (Nat.le_refl _) reached
  | answer within reached taken =>
    rw [← left_of_ok taken]
    exact .step within reached
  | fault within reached failed =>
    rw [← left_of_error failed]
    exact .step within reached

theorem Visits.invariant {Holds : Frame → Prop}
    (keeps : ∀ frame, Holds frame → Holds (left (step frame))) (start : Holds first)
    (visited : Visits step limit first frame) : Holds frame := by
  cases visited with
  | start => exact start
  | step _ reached =>
    apply keeps
    refine frameAfter_invariant (fun before next holds taken => ?_) start reached
    rw [← left_of_ok taken]
    exact keeps before holds

end TrieDispatch.Machine
