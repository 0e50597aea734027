import TrieDispatch.Proofs.Machine.Frames
import TrieDispatch.Proofs.Machine.Runs

/-! # Step limits -/

namespace TrieDispatch.Machine

variable {step : Action (Option Bool)} {first middle last : Frame} {count limit limit' : Nat}

theorem loop_of_frameAfter_error {budget : Nat} {fault : Fault}
    (h : frameAfter step count first = some middle) (fails : step middle = .error fault last)
    (within : count < budget) (limit : Nat) :
    loop step limit budget first = (.error fault, last) := by
  obtain ⟨rest, rfl⟩ := Nat.exists_eq_add_of_lt within
  rw [Nat.add_assoc, loop_of_frameAfter h, loop, fails]

/-- Under a smaller limit a run is cut off after so many steps, or it ends by itself and alike. -/
theorem loop_cut (step : Action (Option Bool)) (less : limit ≤ limit') (first : Frame) :
    (∃ last, frameAfter step limit first = some last ∧
        loop step limit limit first = (.error (.stepLimit limit), last)) ∨
      loop step limit limit first = loop step limit' limit' first := by
  have ends := ends_loop step limit limit first
  generalize loop step limit limit first = outcome at ends ⊢
  -- Only a run that takes all its steps can go on under the larger limit.
  cases ends with
  | limit reached => exact .inl ⟨_, reached, rfl⟩
  | answer within reached taken =>
    right
    exact (loop_of_frameAfter_ok reached taken (Nat.lt_of_lt_of_le within less) limit').symm
  | fault within reached failed =>
    right
    exact (loop_of_frameAfter_error reached failed (Nat.lt_of_lt_of_le within less) limit').symm

theorem loop_succ_snd (step : Action (Option Bool)) (limit budget : Nat) (first : Frame) :
    (loop step limit (budget + 1) first).2 = left (step first) ∨
      (loop step limit (budget + 1) first).2 = (loop step limit budget (left (step first))).2 := by
  rw [loop]
  cases step first with
  | error fault last => exact .inl rfl
  | ok answer next =>
    cases answer with
    | some found => exact .inl rfl
    | none => exact .inr rfl

theorem keeps_loop {relates : Frame → Frame → Prop} (mild : Mild relates)
    (keeps : Keeps relates step) (limit budget : Nat) (first : Frame) :
    relates first (loop step limit budget first).2 := by
  induction budget generalizing first with
  | zero => exact mild.refl first
  | succ budget ih =>
    rcases loop_succ_snd step limit budget first with ends | onward
    · rw [ends]
      exact keeps first
    · rw [onward]
      exact mild.trans (keeps first) (ih _)

theorem keeps_loop_succ {relates : Frame → Frame → Prop} (mild : Mild relates)
    (keeps : Keeps relates step) (limit budget : Nat) (first : Frame) :
    relates (left (step first)) (loop step limit (budget + 1) first).2 := by
  rcases loop_succ_snd step limit budget first with ends | onward
  · rw [ends]
    exact mild.refl _
  · rw [onward]
    exact keeps_loop mild keeps limit budget _

/-- Calls made along a run are the first ones of all its calls. -/
theorem moreCalls_of_frameAfter {job : Job} (reached : frameAfter (Machine.step job) count first =
    some middle) (within : count ≤ limit) :
    MoreCalls middle (loop (Machine.step job) limit limit first).2 := by
  obtain ⟨rest, total⟩ := Nat.exists_eq_add_of_le within
  have onward : loop (Machine.step job) limit limit first =
      loop (Machine.step job) limit rest middle := by
    rw [← loop_of_frameAfter reached limit rest, ← total]
  rw [onward]
  exact keeps_loop tolerant_moreCalls.toMild (tolerant_moreCalls.step job) limit rest middle

end TrieDispatch.Machine
