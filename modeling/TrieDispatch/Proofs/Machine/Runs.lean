import TrieDispatch.Machine.Run

namespace TrieDispatch.Machine

/-- The frame after `count` steps, when none of them ends the run. -/
def frameAfter (step : Action (Option Bool)) : (count : Nat) → Frame → Option Frame
  | 0, frame => some frame
  | count + 1, frame =>
    match step frame with
    | .ok none next => frameAfter step count next
    | _ => none

variable {step : Action (Option Bool)} {first last next : Frame}

@[simp]
theorem frameAfter_zero : frameAfter step 0 first = some first := rfl

theorem frameAfter_succ_of_ok (h : step first = .ok none next) (count : Nat) :
    frameAfter step (count + 1) first = frameAfter step count next := by
  simp only [frameAfter, h]

theorem frameAfter_succ_eq_some_iff {count : Nat} :
    frameAfter step (count + 1) first = some last ↔
      ∃ next, step first = .ok none next ∧ frameAfter step count next = some last := by
  rw [frameAfter]
  split
  next next h => simp [h]
  next h =>
    constructor
    · simp
    · rintro ⟨next, taken, _⟩
      exact absurd taken (h next)

theorem frameAfter_add (m n : Nat) :
    frameAfter step (m + n) first = (frameAfter step m first).bind (frameAfter step n) := by
  induction m generalizing first with
  | zero => simp
  | succ m ih =>
    rw [Nat.succ_add, frameAfter, frameAfter]
    split
    next => exact ih
    next => rfl

theorem frameAfter_trans {m n : Nat} {middle : Frame} (h : frameAfter step m first = some middle)
    (h' : frameAfter step n middle = some last) : frameAfter step (m + n) first = some last := by
  rw [frameAfter_add, h, Option.bind_some, h']

theorem frameAfter_invariant {Holds : Frame → Prop}
    (keeps : ∀ frame next, Holds frame → step frame = .ok none next → Holds next)
    {count : Nat} (start : Holds first) (h : frameAfter step count first = some last) :
    Holds last := by
  induction count generalizing first with
  | zero =>
    cases h
    exact start
  | succ count ih =>
    obtain ⟨next, taken, rest⟩ := frameAfter_succ_eq_some_iff.1 h
    exact ih (keeps first next start taken) rest

theorem loop_of_frameAfter {count : Nat} (h : frameAfter step count first = some last)
    (limit budget : Nat) :
    loop step limit (count + budget) first = loop step limit budget last := by
  induction count generalizing first with
  | zero =>
    cases h
    rw [Nat.zero_add]
  | succ count ih =>
    obtain ⟨next, taken, rest⟩ := frameAfter_succ_eq_some_iff.1 h
    rw [Nat.succ_add, loop, taken]
    exact ih rest

theorem loop_of_frameAfter_ok {count budget : Nat} {found : Bool} {middle : Frame}
    (h : frameAfter step count first = some middle) (ends : step middle = .ok (some found) last)
    (within : count < budget) (limit : Nat) :
    loop step limit budget first = (.ok found, last) := by
  obtain ⟨rest, rfl⟩ := Nat.exists_eq_add_of_lt within
  rw [Nat.add_assoc, loop_of_frameAfter h, loop, ends]

theorem loop_of_frameAfter_le {count limit : Nat} (h : frameAfter step count first = some last)
    (less : limit ≤ count) : ∃ cut, frameAfter step limit first = some cut ∧
      loop step limit limit first = (.error (.stepLimit limit), cut) := by
  obtain ⟨rest, rfl⟩ := Nat.exists_eq_add_of_le less
  rw [frameAfter_add] at h
  obtain ⟨cut, reached, -⟩ := Option.bind_eq_some_iff.1 h
  exact ⟨cut, reached, loop_of_frameAfter reached limit 0⟩

/-- How a run ends: out of budget, with an answer or with a fault. -/
inductive Ends (step : Action (Option Bool)) (limit budget : Nat) (first : Frame) :
    Except Fault Bool × Frame → Prop
  | limit {last : Frame} : frameAfter step budget first = some last →
      Ends step limit budget first (.error (.stepLimit limit), last)
  | answer {count : Nat} {frame last : Frame} {found : Bool} : count < budget →
      frameAfter step count first = some frame → step frame = .ok (some found) last →
      Ends step limit budget first (.ok found, last)
  | fault {count : Nat} {frame last : Frame} {fault : Fault} : count < budget →
      frameAfter step count first = some frame → step frame = .error fault last →
      Ends step limit budget first (.error fault, last)

theorem ends_loop (step : Action (Option Bool)) (limit budget : Nat) (first : Frame) :
    Ends step limit budget first (loop step limit budget first) := by
  induction budget generalizing first with
  | zero => exact .limit rfl
  | succ budget ih =>
    rw [loop]
    cases taken : step first with
    | error fault last => exact .fault (Nat.succ_pos budget) rfl taken
    | ok answer next =>
      cases answer with
      | some found => exact .answer (Nat.succ_pos budget) rfl taken
      | none =>
        have rest := ih next
        dsimp only
        generalize loop step limit budget next = outcome at rest
        cases rest with
        | limit reached => exact .limit ((frameAfter_succ_of_ok taken budget).trans reached)
        | answer within reached ends =>
          have reached := (frameAfter_succ_of_ok taken _).trans reached
          exact .answer (Nat.succ_lt_succ within) reached ends
        | fault within reached ends =>
          have reached := (frameAfter_succ_of_ok taken _).trans reached
          exact .fault (Nat.succ_lt_succ within) reached ends

end TrieDispatch.Machine
