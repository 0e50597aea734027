import TrieDispatch.Proofs.Machine.Uniformity

/-! # What actions leave of a frame -/

namespace TrieDispatch.Machine

variable {α β : Type} {relates : Frame → Frame → Prop}

def left : EStateM.Result Fault Frame α → Frame
  | .ok _ frame => frame
  | .error _ frame => frame

theorem Uniform.ip_left {action : Job → Action α} (h : Uniform action) (job : Job)
    (frame : Frame) : (left (action job frame)).ip = frame.ip := by
  have same := h.moved job (fun _ => frame.ip) frame
  have unmoved : frame.moved (fun _ => frame.ip) = frame := rfl
  rw [unmoved] at same
  rw [same]
  cases action job frame <;> rfl

def Keeps (relates : Frame → Frame → Prop) (action : Action α) : Prop :=
  ∀ frame, relates frame (left (action frame))

/-- The relation tolerates any change of the pointer, taking the top cell, and storing into a
slot. -/
structure Gentle (relates : Frame → Frame → Prop) : Prop where
  refl : ∀ frame, relates frame frame
  trans : ∀ {first middle last}, relates first middle → relates middle last → relates first last
  ip : ∀ frame ip, relates frame { frame with ip := ip }
  pop : ∀ frame, relates frame { frame with stack := frame.stack.pop }
  slot : ∀ frame index number,
    relates frame { frame with locals := frame.locals.setIfInBounds index number }

/-- The relation tolerates any change of the stack. -/
structure Mild (relates : Frame → Frame → Prop) : Prop extends Gentle relates where
  stack : ∀ frame stack, relates frame { frame with stack := stack }

/-- The relation also tolerates a new output and a further call. -/
structure Lenient (relates : Frame → Frame → Prop) : Prop extends Mild relates where
  out : ∀ frame out, relates frame { frame with out := out }
  call : ∀ frame invocation, relates frame { frame with calls := frame.calls.push invocation }

/-- The relation also tolerates the count of steps. -/
structure Tolerant (relates : Frame → Frame → Prop) : Prop extends Lenient relates where
  count : ∀ frame, relates frame { frame with steps := frame.steps + 1 }

theorem keeps_ite {condition : Prop} [Decidable condition] {action other : Action α}
    (h : Keeps relates action) (h' : Keeps relates other) :
    Keeps relates (if condition then action else other) := by
  split
  · exact h
  · exact h'

@[simp]
theorem left_answer (action : Action α) (f : α → β) (frame : Frame) :
    left ((action >>= fun a => pure (f a)) frame) = left (action frame) := by
  rw [bind_apply]
  cases action frame <;> rfl

theorem Keeps.answer {action : Action α} (h : Keeps relates action) (f : α → β) :
    Keeps relates (action >>= fun a => pure (f a)) := by
  intro frame
  rw [left_answer]
  exact h frame

namespace Gentle

variable (gentle : Gentle relates)

include gentle

theorem pure (a : α) : Keeps relates (Pure.pure a : Action α) := fun frame => gentle.refl frame

theorem throw (fault : Fault) : Keeps relates (MonadExcept.throw fault : Action α) :=
  fun frame => gentle.refl frame

theorem bind {action : Action α} {rest : α → Action β} (h : Keeps relates action)
    (h' : ∀ a, Keeps relates (rest a)) : Keeps relates (action >>= rest) := by
  intro frame
  have first := h frame
  rw [bind_apply]
  cases taken : action frame with
  | ok a next =>
    rw [taken] at first
    exact gentle.trans first (h' a next)
  | error fault last =>
    rw [taken] at first
    exact first

theorem get {rest : Frame → Action α} (h : ∀ frame, Keeps relates (rest frame)) :
    Keeps relates (MonadState.get >>= rest) := gentle.bind gentle.refl h

theorem popCell : Keeps relates Machine.pop := by
  intro frame
  rw [Machine.pop]
  split
  · exact gentle.pop frame
  · exact gentle.refl frame

theorem moveTo (ip : Nat) : Keeps relates (Machine.moveTo ip) := fun frame => gentle.ip frame ip

theorem popInt : Keeps relates Machine.popInt := by
  apply gentle.bind gentle.popCell
  intro cell
  cases cell with
  | int number => exact gentle.pure number
  | _ => exact gentle.throw _

theorem popValue : Keeps relates Machine.popValue := by
  apply gentle.bind gentle.popCell
  intro cell
  cases cell with
  | value value => exact gentle.pure value
  | _ => exact gentle.throw _

theorem popKey : Keeps relates Machine.popKey := by
  apply gentle.bind gentle.popCell
  intro cell
  cases cell with
  | key => exact gentle.pure ()
  | _ => exact gentle.throw _

theorem popArgs : Keeps relates Machine.popArgs := by
  apply gentle.bind gentle.popCell
  intro cell
  cases cell with
  | args => exact gentle.pure ()
  | _ => exact gentle.throw _

theorem storeLocal (index : Nat) : Keeps relates (Machine.storeLocal index) := by
  apply gentle.bind gentle.popInt
  intro number
  apply gentle.get
  intro frame
  exact keeps_ite (fun frame => gentle.slot frame index number) (gentle.throw _)

theorem branchNe (job : Job) (displacement : Int) :
    Keeps relates (Machine.branchNe job displacement) := by
  apply gentle.bind gentle.popInt
  intro right
  apply gentle.bind gentle.popInt
  intro left
  refine keeps_ite (gentle.get fun frame => ?_) (gentle.pure ())
  exact keeps_ite (gentle.moveTo _) (gentle.throw _)

theorem operand (width : Nat) (immediate? : ByteCode → Nat → Option α) (job : Job) :
    Keeps relates (Machine.operand width immediate? job) := by
  apply gentle.get
  intro frame
  dsimp only
  split
  · exact gentle.throw _
  · exact (gentle.moveTo _).answer _

end Gentle

namespace Mild

variable (mild : Mild relates)

include mild

theorem push (job : Job) (cell : Cell) : Keeps relates (Machine.push job cell) := by
  intro frame
  rw [Machine.push]
  split
  · exact mild.stack frame _
  · exact mild.refl frame

theorem keyLength (job : Job) : Keeps relates (Machine.keyLength job) :=
  mild.bind mild.popKey fun _ => mild.push job _

theorem keyCharAt (job : Job) : Keeps relates (Machine.keyCharAt job) :=
  mild.bind mild.popInt fun _ => mild.bind mild.popKey fun _ => mild.push job _

theorem loadElem (job : Job) : Keeps relates (Machine.loadElem job) :=
  mild.bind mild.popInt fun _ => mild.bind mild.popArgs fun _ => mild.push job _

theorem loadLocal (job : Job) (index : Nat) : Keeps relates (Machine.loadLocal job index) := by
  apply mild.get
  intro frame
  cases frame.locals[index]? with
  | some number => exact mild.push job _
  | none => exact mild.throw _

theorem add (job : Job) : Keeps relates (Machine.add job) :=
  mild.bind mild.popInt fun _ => mild.bind mild.popInt fun _ =>
    keeps_ite (mild.push job _) (mild.throw _)

theorem castTo (job : Job) (tag : UInt8) : Keeps relates (Machine.castTo job tag) := by
  rw [Machine.castTo]
  split
  · exact mild.throw _
  · exact mild.bind mild.popValue fun _ => mild.push job _

end Mild

namespace Lenient

variable (lenient : Lenient relates) (job : Job)

include lenient

theorem callHandler (index : Nat) : Keeps relates (Machine.callHandler job index) := by
  have mild := lenient.toMild
  cases known : job.routine.handler? index with
  | none =>
    rw [callHandler_of_none known]
    exact mild.throw _
  | some handler =>
    rw [callHandler_of_some known]
    intro frame
    rw [callKnown]
    split
    · exact mild.refl frame
    · split
      next => exact mild.refl frame
      next args _ =>
        let called : Frame := { frame with calls := frame.calls.push ⟨handler, args⟩ }
        have below := mild.stack called (frame.stack.take (frame.stack.size - handler.arity))
        exact mild.trans (mild.trans (lenient.call frame _) below) (mild.push job _ _)

theorem storeOut : Keeps relates Machine.storeOut := by
  apply lenient.bind lenient.popCell
  intro cell
  cases cell with
  | value value => exact fun frame => lenient.out frame (some value)
  | void => exact lenient.pure ()
  | _ => exact lenient.throw _

theorem clearOut : Keeps relates Machine.clearOut := fun frame => lenient.out frame none

theorem perform (opcode : Opcode) : Keeps relates (Machine.perform job opcode) := by
  have mild := lenient.toMild
  cases opcode with
  | loadKey | loadArgs | pushDigit => exact (mild.push job _).answer _
  | keyLength => exact (mild.keyLength job).answer _
  | keyCharAt => exact (mild.keyCharAt job).answer _
  | loadElem => exact (mild.loadElem job).answer _
  | add => exact (mild.add job).answer _
  | loadLocal0 | loadLocal1 => exact (mild.loadLocal job _).answer _
  | storeLocal0 | storeLocal1 => exact (mild.storeLocal _).answer _
  | loadLocal =>
    exact mild.bind (mild.operand _ _ job) fun _ => (mild.loadLocal job _).answer _
  | storeLocal =>
    exact mild.bind (mild.operand _ _ job) fun _ => (mild.storeLocal _).answer _
  | pushSmall | pushInt =>
    exact mild.bind (mild.operand _ _ job) fun _ => (mild.push job _).answer _
  | branchNeShort | branchNe =>
    exact mild.bind (mild.operand _ _ job) fun _ => (mild.branchNe job _).answer _
  | ret => exact mild.bind mild.popInt fun _ => mild.pure _
  | castTo => exact mild.bind (mild.operand _ _ job) fun _ => (mild.castTo job _).answer _
  | callHandler =>
    exact mild.bind (mild.operand _ _ job) fun _ => (lenient.callHandler job _).answer _
  | storeOut => exact lenient.storeOut.answer _
  | clearOut => exact lenient.clearOut.answer _

end Lenient

namespace Tolerant

variable (tolerant : Tolerant relates) (job : Job)

include tolerant

theorem step : Keeps relates (Machine.step job) := by
  refine tolerant.bind tolerant.count fun _ => tolerant.get fun frame => ?_
  dsimp only
  split
  · exact tolerant.throw _
  · split
    · exact tolerant.throw _
    · exact tolerant.bind (tolerant.moveTo _) fun _ => tolerant.perform job _

end Tolerant

def SameRecord (frame next : Frame) : Prop := next.out = frame.out ∧ next.calls = frame.calls

theorem mild_sameRecord : Mild SameRecord where
  refl _ := ⟨rfl, rfl⟩
  trans h h' := ⟨h'.1.trans h.1, h'.2.trans h.2⟩
  ip _ _ := ⟨rfl, rfl⟩
  pop _ := ⟨rfl, rfl⟩
  stack _ _ := ⟨rfl, rfl⟩
  slot _ _ _ := ⟨rfl, rfl⟩

def MoreCalls (frame next : Frame) : Prop := frame.calls.toList <+: next.calls.toList

theorem tolerant_moreCalls : Tolerant MoreCalls where
  refl _ := List.prefix_rfl
  trans h h' := h.trans h'
  ip _ _ := List.prefix_rfl
  pop _ := List.prefix_rfl
  stack _ _ := List.prefix_rfl
  slot _ _ _ := List.prefix_rfl
  out _ _ := List.prefix_rfl
  call frame invocation := by
    rw [MoreCalls, Array.toList_push]
    exact List.prefix_append _ _
  count _ := List.prefix_rfl

end TrieDispatch.Machine
