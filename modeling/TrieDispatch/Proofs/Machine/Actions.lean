import TrieDispatch.Machine.Step

namespace TrieDispatch.Machine

section

variable {α β : Type} {action : Action α} {rest : α → Action β} {frame last : Frame}

@[simp]
theorem pure_apply (a : α) (frame : Frame) : (pure a : Action α) frame = .ok a frame := rfl

@[simp]
theorem throw_apply (fault : Fault) (frame : Frame) :
    (throw fault : Action α) frame = .error fault frame := rfl

@[simp]
theorem get_apply (frame : Frame) : (get : Action Frame) frame = .ok frame frame := rfl

@[simp]
theorem modify_apply (f : Frame → Frame) (frame : Frame) :
    (modify f : Action Unit) frame = .ok () (f frame) := rfl

@[simp]
theorem moveTo_apply (ip : Nat) (frame : Frame) :
    moveTo ip frame = .ok () { frame with ip := ip } := rfl

theorem bind_apply (action : Action α) (rest : α → Action β) (frame : Frame) :
    (action >>= rest) frame =
      match action frame with
      | .ok a next => rest a next
      | .error fault last => .error fault last := by
  simp only [Bind.bind, EStateM.bind]
  cases action frame <;> rfl

theorem bind_eq_ok {b : β} (h : (action >>= rest) frame = .ok b last) :
    ∃ a next, action frame = .ok a next ∧ rest a next = .ok b last := by
  rw [bind_apply] at h
  cases taken : action frame with
  | error fault next =>
    rw [taken] at h
    cases h
  | ok a next =>
    rw [taken] at h
    exact ⟨a, next, rfl, h⟩

theorem bind_eq_error {fault : Fault} (h : (action >>= rest) frame = .error fault last) :
    action frame = .error fault last ∨
      ∃ a next, action frame = .ok a next ∧ rest a next = .error fault last := by
  rw [bind_apply] at h
  cases taken : action frame with
  | error fault' next =>
    rw [taken] at h
    cases h
    exact .inl rfl
  | ok a next =>
    rw [taken] at h
    exact .inr ⟨a, next, rfl, h⟩

end

section

variable {job : Job} {frame next : Frame} {ip steps : Nat} {stack : Array Cell} {locals : Array Int}
  {out : Option Value} {calls : Array Invocation}

theorem push_of_lt (h : frame.stack.size < job.room) (cell : Cell) :
    push job cell frame = .ok () { frame with stack := frame.stack.push cell } := if_pos h

theorem push_of_le (h : job.room ≤ frame.stack.size) (cell : Cell) :
    push job cell frame = .error .stackOverflow frame := if_neg (Nat.not_lt.2 h)

theorem pop_eq_ok_iff {cell : Cell} : pop frame = .ok cell next ↔
    ∃ below, frame.stack = below.push cell ∧ next = { frame with stack := below } := by
  rw [pop]
  constructor
  · intro taken
    split at taken
    next found =>
      obtain ⟨below, split⟩ := Array.back?_eq_some_iff.1 found
      cases taken
      exact ⟨below, split, by rw [split, Array.pop_push]⟩
    next => cases taken
  · rintro ⟨below, split, rfl⟩
    simp only [split, Array.back?_push, Array.pop_push]

theorem popInt_eq_ok_iff {number : Int} : popInt frame = .ok number next ↔
    ∃ below, frame.stack = below.push (.int number) ∧ next = { frame with stack := below } := by
  constructor
  · intro taken
    obtain ⟨cell, middle, popped, rest⟩ := bind_eq_ok taken
    cases cell with
    | int other =>
      cases rest
      exact pop_eq_ok_iff.1 popped
    | _ => cases rest
  · intro split
    simp only [popInt, bind_apply, pop_eq_ok_iff.2 split, pure_apply]

theorem popValue_eq_ok_iff {value : Value} : popValue frame = .ok value next ↔
    ∃ below, frame.stack = below.push (.value value) ∧ next = { frame with stack := below } := by
  constructor
  · intro taken
    obtain ⟨cell, middle, popped, rest⟩ := bind_eq_ok taken
    cases cell with
    | value other =>
      cases rest
      exact pop_eq_ok_iff.1 popped
    | _ => cases rest
  · intro split
    simp only [popValue, bind_apply, pop_eq_ok_iff.2 split, pure_apply]

@[simp]
theorem pop_push {cell : Cell} : pop ⟨ip, stack.push cell, locals, out, calls, steps⟩ =
    .ok cell ⟨ip, stack, locals, out, calls, steps⟩ := by
  simp [pop]

@[simp]
theorem popInt_push {number : Int} :
    popInt ⟨ip, stack.push (.int number), locals, out, calls, steps⟩ =
      .ok number ⟨ip, stack, locals, out, calls, steps⟩ := by
  simp only [popInt, bind_apply, pop_push, pure_apply]

@[simp]
theorem popValue_push {value : Value} :
    popValue ⟨ip, stack.push (.value value), locals, out, calls, steps⟩ =
      .ok value ⟨ip, stack, locals, out, calls, steps⟩ := by
  simp only [popValue, bind_apply, pop_push, pure_apply]

@[simp]
theorem popKey_push : popKey ⟨ip, stack.push .key, locals, out, calls, steps⟩ =
    .ok () ⟨ip, stack, locals, out, calls, steps⟩ := by
  simp only [popKey, bind_apply, pop_push, pure_apply]

@[simp]
theorem popArgs_push : popArgs ⟨ip, stack.push .args, locals, out, calls, steps⟩ =
    .ok () ⟨ip, stack, locals, out, calls, steps⟩ := by
  simp only [popArgs, bind_apply, pop_push, pure_apply]

end

end TrieDispatch.Machine
