import TrieDispatch.Program.Depth
import TrieDispatch.Proofs.Machine.Uniformity

/-! # What actions do to the stack -/

namespace TrieDispatch.Machine

variable {α β : Type}

/-- Faults that come neither from the byte code nor from the stack nor from the step budget. -/
def Fault.Ordinary : Fault → Prop
  | invalidLocal _ | invalidHandler _ | kindMismatch _ _ | arithmeticOverflow => True
  | _ => False

/-- The stack is left with the size that `effect` tells, and a fault is accounted for. -/
structure Balanced (job : Job) (effect : StackEffect) (action : Action α) : Prop where
  ok : ∀ {frame next : Frame} {a : α}, action frame = .ok a next →
    effect.pops ≤ frame.stack.size ∧
      next.stack.size = frame.stack.size - effect.pops + effect.pushes
  error : ∀ {frame last : Frame} {fault : Fault}, action frame = .error fault last →
    fault.Ordinary ∨ fault = .stackUnderflow ∧ frame.stack.size < effect.pops ∨
      fault = .stackOverflow ∧ 0 < effect.pushes ∧
        job.room < frame.stack.size - effect.pops + effect.pushes

variable {job : Job}

theorem balanced_pure (a : α) : Balanced job ⟨0, 0⟩ (pure a) where
  ok h := by
    cases h
    exact ⟨Nat.zero_le _, rfl⟩
  error h := by cases h

theorem balanced_throw (fault : Fault) (effect : StackEffect) (h : fault.Ordinary) :
    Balanced job effect (throw fault : Action α) where
  ok h := by cases h
  error h' := by
    cases h'
    exact .inl h

theorem balanced_modify {f : Frame → Frame} (h : ∀ frame, (f frame).stack = frame.stack) :
    Balanced job ⟨0, 0⟩ (modify f) where
  ok {frame _ _} h' := by
    cases h'
    exact ⟨Nat.zero_le _, congrArg Array.size (h frame)⟩
  error h' := by cases h'

theorem balanced_moveTo (ip : Nat) : Balanced job ⟨0, 0⟩ (moveTo ip) := balanced_modify fun _ => rfl

theorem Balanced.bind {pops more pushes : Nat} {action : Action α} {rest : α → Action β}
    (h : Balanced job ⟨pops, 0⟩ action) (h' : ∀ a, Balanced job ⟨more, pushes⟩ (rest a)) :
    Balanced job ⟨more + pops, pushes⟩ (action >>= rest) where
  ok taken := by
    obtain ⟨a, next, first, second⟩ := bind_eq_ok taken
    have := h.ok first
    have := (h' a).ok second
    dsimp only at *
    omega
  error {_ _ fault} failed := by
    rcases bind_eq_error failed with first | ⟨a, next, first, second⟩
    · rcases h.error first with ordinary | ⟨under, less⟩ | ⟨_, impossible, _⟩
      · exact .inl ordinary
      · exact .inr (.inl ⟨under, Nat.lt_of_lt_of_le less (Nat.le_add_left pops more)⟩)
      · exact absurd impossible (Nat.lt_irrefl 0)
    · have sizes := h.ok first
      rcases (h' a).error second with ordinary | ⟨under, less⟩ | ⟨overflow, positive, less⟩
      · exact .inl ordinary
      · refine .inr (.inl ⟨under, ?_⟩)
        dsimp only at *
        omega
      · refine .inr (.inr ⟨overflow, positive, ?_⟩)
        dsimp only at *
        omega

theorem Balanced.answer {effect : StackEffect} {action : Action α} (h : Balanced job effect action)
    (f : α → β) : Balanced job effect (action >>= fun a => pure (f a)) where
  ok taken := by
    obtain ⟨a, next, first, second⟩ := bind_eq_ok taken
    cases second
    exact h.ok first
  error failed := by
    rcases bind_eq_error failed with first | ⟨a, next, _, second⟩
    · exact h.error first
    · cases second

theorem balanced_get {effect : StackEffect} {rest : Frame → Action α}
    (h : ∀ frame, Balanced job effect (rest frame)) : Balanced job effect (get >>= rest) where
  ok {frame _ _} taken := (h frame).ok taken
  error {frame _ _} failed := (h frame).error failed

theorem balanced_ite {effect : StackEffect} {condition : Prop} [Decidable condition]
    {action other : Action α} (h : Balanced job effect action) (h' : Balanced job effect other) :
    Balanced job effect (if condition then action else other) := by
  split
  · exact h
  · exact h'

theorem balanced_push (cell : Cell) : Balanced job ⟨0, 1⟩ (push job cell) where
  ok {frame _ _} taken := by
    rcases Nat.lt_or_ge frame.stack.size job.room with fits | full
    · rw [push_of_lt fits] at taken
      cases taken
      exact ⟨Nat.zero_le _, Array.size_push _⟩
    · rw [push_of_le full] at taken
      cases taken
  error {frame _ _} failed := by
    rcases Nat.lt_or_ge frame.stack.size job.room with fits | full
    · rw [push_of_lt fits] at failed
      cases failed
    · rw [push_of_le full] at failed
      cases failed
      exact .inr (.inr ⟨rfl, Nat.one_pos, Nat.lt_succ_of_le full⟩)

theorem balanced_pop : Balanced job ⟨1, 0⟩ pop where
  ok {frame _ _} taken := by
    rw [pop] at taken
    cases top : frame.stack.back? with
    | none =>
      rw [top] at taken
      cases taken
    | some cell =>
      rw [top] at taken
      cases taken
      refine ⟨Nat.one_le_iff_ne_zero.2 ?_, Array.size_pop⟩
      intro empty
      rw [Array.eq_empty_of_size_eq_zero empty] at top
      cases top
  error {frame _ _} failed := by
    rw [pop] at failed
    cases top : frame.stack.back? with
    | none =>
      rw [top] at failed
      cases failed
      refine .inr (.inl ⟨rfl, ?_⟩)
      rw [Array.back?_eq_none_iff.1 top]
      exact Nat.one_pos
    | some cell =>
      rw [top] at failed
      cases failed

theorem balanced_popInt : Balanced job ⟨1, 0⟩ popInt := by
  apply balanced_pop.bind
  intro cell
  cases cell with
  | int number => exact balanced_pure number
  | _ => exact balanced_throw _ _ trivial

theorem balanced_popValue : Balanced job ⟨1, 0⟩ popValue := by
  apply balanced_pop.bind
  intro cell
  cases cell with
  | value value => exact balanced_pure value
  | _ => exact balanced_throw _ _ trivial

theorem balanced_popKey : Balanced job ⟨1, 0⟩ popKey := by
  apply balanced_pop.bind
  intro cell
  cases cell with
  | key => exact balanced_pure ()
  | _ => exact balanced_throw _ _ trivial

theorem balanced_popArgs : Balanced job ⟨1, 0⟩ popArgs := by
  apply balanced_pop.bind
  intro cell
  cases cell with
  | args => exact balanced_pure ()
  | _ => exact balanced_throw _ _ trivial

theorem balanced_keyLength : Balanced job ⟨1, 1⟩ (keyLength job) := by
  apply balanced_popKey.bind
  intro _
  exact balanced_push _

theorem balanced_keyCharAt : Balanced job ⟨2, 1⟩ (keyCharAt job) := by
  apply balanced_popInt.bind
  intro position
  apply balanced_popKey.bind
  intro _
  exact balanced_push _

theorem balanced_loadElem : Balanced job ⟨2, 1⟩ (loadElem job) := by
  apply balanced_popInt.bind
  intro index
  apply balanced_popArgs.bind
  intro _
  exact balanced_push _

theorem balanced_loadLocal (index : Nat) : Balanced job ⟨0, 1⟩ (loadLocal job index) := by
  apply balanced_get
  intro frame
  cases frame.locals[index]? with
  | some number => exact balanced_push _
  | none => exact balanced_throw _ _ trivial

theorem balanced_storeLocal (index : Nat) : Balanced job ⟨1, 0⟩ (storeLocal index) := by
  apply balanced_popInt.bind
  intro number
  apply balanced_get
  intro frame
  exact balanced_ite (balanced_modify fun _ => rfl) (balanced_throw _ _ trivial)

theorem balanced_add : Balanced job ⟨2, 1⟩ (add job) := by
  apply balanced_popInt.bind
  intro right
  apply balanced_popInt.bind
  intro left
  exact balanced_ite (balanced_push _) (balanced_throw _ _ trivial)

theorem callKnown_of_short {handler : Handler} {frame : Frame}
    (h : frame.stack.size < handler.arity) :
    callKnown handler job frame = .error .stackUnderflow frame := if_pos h

/-- A call pops the arguments of its handler before it pushes the result. -/
theorem callKnown_of_enough {handler : Handler} {frame : Frame}
    (h : handler.arity ≤ frame.stack.size) :
    callKnown handler job frame =
      match valuesOf (frame.stack.extract (frame.stack.size - handler.arity)).toList with
      | .error kind => .error (.kindMismatch "value" kind) frame
      | .ok args => push job ((handler.body args).elim .void .value) { frame with
          stack := frame.stack.take (frame.stack.size - handler.arity)
          calls := frame.calls.push ⟨handler, args⟩ } := if_neg (Nat.not_lt.2 h)

theorem balanced_callKnown (handler : Handler) :
    Balanced job ⟨handler.arity, 1⟩ (callKnown handler job) where
  ok {frame _ _} taken := by
    rcases Nat.lt_or_ge frame.stack.size handler.arity with short | enough
    · rw [callKnown_of_short short] at taken
      cases taken
    · rw [callKnown_of_enough enough] at taken
      split at taken
      next => cases taken
      next =>
        have pushed := (balanced_push _).ok taken
        simp only [Array.take_eq_extract, Array.size_extract] at pushed
        dsimp only
        omega
  error {frame _ _} failed := by
    rcases Nat.lt_or_ge frame.stack.size handler.arity with short | enough
    · rw [callKnown_of_short short] at failed
      cases failed
      exact .inr (.inl ⟨rfl, short⟩)
    · rw [callKnown_of_enough enough] at failed
      split at failed
      next =>
        cases failed
        exact .inl trivial
      next =>
        rcases (balanced_push _).error failed with ordinary | ⟨_, impossible⟩ | ⟨overflow, _, less⟩
        · exact .inl ordinary
        · exact absurd impossible (Nat.not_lt_zero _)
        · refine .inr (.inr ⟨overflow, Nat.one_pos, ?_⟩)
          simp only [Array.take_eq_extract, Array.size_extract] at less
          dsimp only
          omega

theorem balanced_storeOut : Balanced job ⟨1, 0⟩ storeOut := by
  apply balanced_pop.bind
  intro cell
  cases cell with
  | value value => exact balanced_modify fun _ => rfl
  | void => exact balanced_pure ()
  | _ => exact balanced_throw _ _ trivial

theorem balanced_clearOut : Balanced job ⟨0, 0⟩ clearOut := balanced_modify fun _ => rfl

end TrieDispatch.Machine
