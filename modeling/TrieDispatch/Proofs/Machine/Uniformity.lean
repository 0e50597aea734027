import TrieDispatch.Proofs.Machine.Actions

/-! # Actions under another pointer and more room -/

namespace TrieDispatch.Machine

variable {α β : Type}

def Frame.moved (rename : Nat → Nat) (frame : Frame) : Frame :=
  { frame with ip := rename frame.ip }

def movedResult (rename : Nat → Nat) :
    EStateM.Result Fault Frame α → EStateM.Result Fault Frame α
  | .ok a frame => .ok a (frame.moved rename)
  | .error fault frame => .error fault (frame.moved rename)

def callKnown (handler : Handler) (job : Job) : Action Unit := fun frame =>
  let base := frame.stack.size - handler.arity
  if frame.stack.size < handler.arity then .error .stackUnderflow frame
  else
    match valuesOf (frame.stack.extract base frame.stack.size).toList with
    | .error kind => .error (.kindMismatch "value" kind) frame
    | .ok args => push job ((handler.body args).elim .void .value) { frame with
        stack := frame.stack.take base
        calls := frame.calls.push ⟨handler, args⟩ }

theorem callHandler_of_some {job : Job} {index : Nat} {handler : Handler}
    (h : job.routine.handler? index = some handler) :
    callHandler job index = callKnown handler job := by
  funext frame
  simp only [callHandler, h, callKnown, bind_apply, get_apply]
  split
  next => rfl
  next =>
    cases valuesOf (frame.stack.extract (frame.stack.size - handler.arity)).toList <;> rfl

theorem callHandler_of_none {job : Job} {index : Nat} (h : job.routine.handler? index = none) :
    callHandler job index = throw (.invalidHandler index) := by
  simp only [callHandler, h]

def Job.withRoom (job : Job) (room : Nat) : Job := { job with room := room }

/-- Under a renamed pointer and with more room the action has the same result, unless it overflows
with the room of the job. -/
def Uniform (action : Job → Action α) : Prop :=
  ∀ job room rename frame, job.room ≤ room →
    action (job.withRoom room) (frame.moved rename) = movedResult rename (action job frame) ∨
      job.room < room ∧ ∃ last, action job frame = .error .stackOverflow last

theorem Uniform.moved {action : Job → Action α} (h : Uniform action) (job : Job)
    (rename : Nat → Nat) (frame : Frame) :
    action job (frame.moved rename) = movedResult rename (action job frame) := by
  rcases h job job.room rename frame (Nat.le_refl _) with same | ⟨less, _⟩
  · exact same
  · exact absurd less (Nat.lt_irrefl _)

theorem Uniform.ip_eq {action : Job → Action α} (h : Uniform action) (job : Job)
    {frame next : Frame} {a : α} (taken : action job frame = .ok a next) : next.ip = frame.ip := by
  have same := h.moved job (fun _ => frame.ip) frame
  have unmoved : frame.moved (fun _ => frame.ip) = frame := rfl
  rw [unmoved, taken] at same
  injection same with _ same
  rw [same]
  rfl

theorem Uniform.roomier {action : Job → Action α} (h : Uniform action) {job : Job} {room : Nat}
    (more : job.room ≤ room) (frame : Frame) :
    action (job.withRoom room) frame = action job frame ∨
      ∃ last, action job frame = .error .stackOverflow last := by
  rcases h job room id frame more with same | ⟨_, overflow⟩
  · left
    refine same.trans ?_
    cases action job frame <;> rfl
  · exact .inr overflow

theorem uniform_pure (a : α) : Uniform fun _ => pure a := by
  intro job room rename frame _
  exact .inl rfl

theorem uniform_throw (fault : Fault) : Uniform fun _ => (throw fault : Action α) := by
  intro job room rename frame _
  exact .inl rfl

theorem uniform_modify {f : Frame → Frame}
    (h : ∀ rename frame, f (Frame.moved rename frame) = (f frame).moved rename) :
    Uniform fun _ => (modify f : Action Unit) := by
  intro job room rename frame _
  left
  simp only [modify_apply, h, movedResult]

theorem Uniform.bind {action : Job → Action α} {rest : α → Job → Action β}
    (h : Uniform action) (h' : ∀ a, Uniform (rest a)) :
    Uniform fun job => action job >>= fun a => rest a job := by
  intro job room rename frame more
  simp only [bind_apply]
  rcases h job room rename frame more with same | ⟨less, last, overflow⟩
  · rw [same]
    cases action job frame with
    | ok a next => exact h' a job room rename next more
    | error fault next => exact .inl rfl
  · exact .inr ⟨less, last, by rw [overflow]⟩

theorem uniform_get {rest : Frame → Job → Action α} (h : ∀ frame, Uniform (rest frame))
    (blind : ∀ rename frame, rest (Frame.moved rename frame) = rest frame) :
    Uniform fun job => get >>= fun frame => rest frame job := by
  intro job room rename frame more
  show rest (frame.moved rename) (job.withRoom room) (frame.moved rename) = _ ∨ _
  rw [blind]
  exact h frame job room rename frame more

theorem uniform_ite {condition : Prop} [Decidable condition] {action other : Job → Action α}
    (h : Uniform action) (h' : Uniform other) :
    Uniform fun job => if condition then action job else other job := by
  split
  · exact h
  · exact h'

theorem uniform_push {cell : Job → Cell} (blind : ∀ job room, cell (job.withRoom room) = cell job) :
    Uniform fun job => push job (cell job) := by
  intro job room rename frame more
  dsimp only
  rw [blind]
  by_cases fits : frame.stack.size < job.room
  · have fits' : frame.stack.size < room := Nat.lt_of_lt_of_le fits more
    left
    simp only [push, Frame.moved, Job.withRoom, movedResult, fits, fits', if_true]
  · by_cases fits' : frame.stack.size < room
    · refine .inr ⟨by omega, frame, ?_⟩
      simp only [push, fits, if_false]
    · left
      simp only [push, Frame.moved, Job.withRoom, movedResult, fits, fits', if_false]

theorem uniform_pushCell (cell : Cell) : Uniform fun job => push job cell :=
  uniform_push fun _ _ => rfl

theorem uniform_pop : Uniform fun _ => pop := by
  intro job room rename frame _
  left
  simp only [pop, Frame.moved]
  cases frame.stack.back? <;> rfl

theorem uniform_popInt : Uniform fun _ => popInt := by
  apply uniform_pop.bind
  intro cell
  cases cell with
  | int number => exact uniform_pure number
  | _ => exact uniform_throw _

theorem uniform_popValue : Uniform fun _ => popValue := by
  apply uniform_pop.bind
  intro cell
  cases cell with
  | value value => exact uniform_pure value
  | _ => exact uniform_throw _

theorem uniform_popKey : Uniform fun _ => popKey := by
  apply uniform_pop.bind
  intro cell
  cases cell with
  | key => exact uniform_pure ()
  | _ => exact uniform_throw _

theorem uniform_popArgs : Uniform fun _ => popArgs := by
  apply uniform_pop.bind
  intro cell
  cases cell with
  | args => exact uniform_pure ()
  | _ => exact uniform_throw _

theorem uniform_keyLength : Uniform keyLength := by
  apply uniform_popKey.bind
  intro _
  exact uniform_push fun _ _ => rfl

theorem uniform_keyCharAt : Uniform keyCharAt := by
  apply uniform_popInt.bind
  intro position
  apply uniform_popKey.bind
  intro _
  exact uniform_push fun _ _ => rfl

theorem uniform_loadElem : Uniform loadElem := by
  apply uniform_popInt.bind
  intro index
  apply uniform_popArgs.bind
  intro _
  exact uniform_push fun _ _ => rfl

theorem uniform_loadLocal (index : Nat) : Uniform fun job => loadLocal job index := by
  apply uniform_get _ fun _ _ => rfl
  intro frame
  cases frame.locals[index]? with
  | some number => exact uniform_pushCell _
  | none => exact uniform_throw _

theorem uniform_storeLocal (index : Nat) : Uniform fun _ => storeLocal index := by
  apply uniform_popInt.bind
  intro number
  apply uniform_get _ fun _ _ => rfl
  intro frame
  exact uniform_ite (uniform_modify fun _ _ => rfl) (uniform_throw _)

theorem uniform_add : Uniform add := by
  apply uniform_popInt.bind
  intro right
  apply uniform_popInt.bind
  intro left
  exact uniform_ite (uniform_pushCell _) (uniform_throw _)

theorem uniform_castTo (tag : UInt8) : Uniform fun job => castTo job tag := by
  cases known : ParamKind.ofTag? tag with
  | none =>
    simp only [castTo, known]
    exact uniform_throw _
  | some kind =>
    simp only [castTo, known]
    apply uniform_popValue.bind
    intro value
    exact uniform_pushCell _

theorem uniform_callKnown (handler : Handler) : Uniform (callKnown handler) := by
  intro job room rename frame more
  by_cases short : frame.stack.size < handler.arity
  · left
    simp only [callKnown, Frame.moved, short, if_true, movedResult]
  · simp only [callKnown, Frame.moved, short, if_false]
    cases valuesOf (frame.stack.extract (frame.stack.size - handler.arity)).toList with
    | error kind => exact .inl rfl
    | ok args =>
      let called : Frame := { frame with
        stack := frame.stack.take (frame.stack.size - handler.arity)
        calls := frame.calls.push ⟨handler, args⟩ }
      exact uniform_pushCell _ job room rename called more

theorem uniform_callHandler (index : Nat) : Uniform fun job => callHandler job index := by
  intro job room rename frame more
  cases known : job.routine.handler? index with
  | none =>
    have known' : (job.withRoom room).routine.handler? index = none := known
    simp only [callHandler_of_none known, callHandler_of_none known']
    exact .inl rfl
  | some handler =>
    have known' : (job.withRoom room).routine.handler? index = some handler := known
    simp only [callHandler_of_some known, callHandler_of_some known']
    exact uniform_callKnown handler job room rename frame more

theorem uniform_storeOut : Uniform fun _ => storeOut := by
  apply uniform_pop.bind
  intro cell
  cases cell with
  | value value => exact uniform_modify fun _ _ => rfl
  | void => exact uniform_pure ()
  | _ => exact uniform_throw _

theorem uniform_clearOut : Uniform fun _ => clearOut := uniform_modify fun _ _ => rfl

end TrieDispatch.Machine
