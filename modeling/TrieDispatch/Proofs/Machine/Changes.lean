import TrieDispatch.Proofs.Checked
import TrieDispatch.Proofs.Machine.Balance
import TrieDispatch.Proofs.Machine.Decoded
import TrieDispatch.Proofs.Machine.Frames

/-! # What a step changes -/

namespace TrieDispatch.Machine

variable {α β : Type} {job : Job} {frame middle next last : Frame}

/-- Topmost cells may be missing and numbers in slots may differ, but nothing else. -/
structure Reduced (frame next : Frame) : Prop where
  stack : next.stack.toList <+: frame.stack.toList
  slots : next.locals.size = frame.locals.size
  out : next.out = frame.out
  calls : next.calls = frame.calls

theorem gentle_reduced : Gentle Reduced where
  refl _ := ⟨List.prefix_rfl, rfl, rfl, rfl⟩
  trans h h' := ⟨h'.stack.trans h.stack, h'.slots.trans h.slots, h'.out.trans h.out,
    h'.calls.trans h.calls⟩
  ip _ _ := ⟨List.prefix_rfl, rfl, rfl, rfl⟩
  pop frame := by
    refine ⟨?_, rfl, rfl, rfl⟩
    rw [Array.toList_pop]
    exact List.dropLast_prefix _
  slot _ _ _ := ⟨List.prefix_rfl, Array.size_setIfInBounds, rfl, rfl⟩

theorem Reduced.mem {cell : Cell} (h : Reduced frame next) (member : cell ∈ next.stack) :
    cell ∈ frame.stack :=
  Array.mem_toList_iff.1 (h.stack.subset (Array.mem_toList_iff.2 member))

def Offered (job : Job) (frame : Frame) (cell : Cell) : Prop :=
  ∀ value, cell = .value value → value = .null ∨ value ∈ job.args ∨ .value value ∈ frame.stack

inductive Adjusted (job : Job) (frame : Frame) : Frame → Prop
  | taken {next : Frame} : Reduced frame next → Adjusted job frame next
  | put {middle : Frame} {cell : Cell} : Reduced frame middle → middle.stack.size < job.room →
      Offered job frame cell → Adjusted job frame { middle with stack := middle.stack.push cell }

theorem Adjusted.after (h : Reduced frame middle) (h' : Adjusted job middle last) :
    Adjusted job frame last := by
  cases h' with
  | taken rest => exact .taken (gentle_reduced.trans h rest)
  | put rest fits offered =>
    refine .put (gentle_reduced.trans h rest) fits fun value same => ?_
    exact (offered value same).imp_right (Or.imp_right h.mem)

section

variable {cell : Cell} {action : Action α} {rest : α → Action β}

theorem adjusted_push (h : Reduced frame middle) (offered : Offered job frame cell) :
    Adjusted job frame (left (push job cell middle)) := by
  rw [push]
  split
  next fits => exact .put h fits offered
  next => exact .taken h

theorem keeps_push (offered : ∀ frame, Offered job frame cell) :
    Keeps (Adjusted job) (push job cell) :=
  fun frame => adjusted_push (gentle_reduced.refl frame) (offered frame)

theorem keeps_taken (h : Keeps Reduced action) : Keeps (Adjusted job) action :=
  fun frame => .taken (h frame)

theorem Keeps.bind (h : Keeps Reduced action) (h' : ∀ a, Keeps (Adjusted job) (rest a)) :
    Keeps (Adjusted job) (action >>= rest) := by
  intro frame
  have first := h frame
  rw [bind_apply]
  cases taken : action frame with
  | ok a next =>
    rw [taken] at first
    exact .after first (h' a next)
  | error fault last =>
    rw [taken] at first
    exact .taken first

end

theorem offered_plain {cell : Cell} (plain : ∀ value, cell ≠ .value value) (frame : Frame) :
    Offered job frame cell :=
  fun value same => absurd same (plain value)

theorem offered_elementAt? (index : Int) (frame : Frame) :
    Offered job frame (.value ((elementAt? job.args index).getD .null)) := by
  rintro value ⟨⟩
  cases found : elementAt? job.args index with
  | none => exact .inl rfl
  | some value =>
    rw [elementAt?] at found
    split at found
    next => exact .inr (.inl (Array.mem_of_getElem? found))
    next => cases found

theorem offered_narrow {kind : ParamKind} {value : Value} (h : .value value ∈ frame.stack) :
    Offered job frame (.value (kind.narrow value)) := by
  rintro narrowed ⟨⟩
  rw [ParamKind.narrow]
  split
  · exact .inr (.inr h)
  · exact .inl rfl

theorem adjusted_keyLength (job : Job) : Keeps (Adjusted job) (keyLength job) :=
  gentle_reduced.popKey.bind fun _ => keeps_push (offered_plain nofun)

theorem adjusted_keyCharAt (job : Job) : Keeps (Adjusted job) (keyCharAt job) :=
  gentle_reduced.popInt.bind fun _ => gentle_reduced.popKey.bind fun _ =>
    keeps_push (offered_plain nofun)

theorem adjusted_loadElem (job : Job) : Keeps (Adjusted job) (loadElem job) :=
  gentle_reduced.popInt.bind fun index => gentle_reduced.popArgs.bind fun _ =>
    keeps_push (offered_elementAt? index)

theorem adjusted_loadLocal (job : Job) (index : Nat) :
    Keeps (Adjusted job) (loadLocal job index) := by
  refine Keeps.bind (fun frame => gentle_reduced.refl frame) fun frame => ?_
  cases frame.locals[index]? with
  | some number => exact keeps_push (offered_plain nofun)
  | none => exact keeps_taken (gentle_reduced.throw _)

theorem adjusted_add (job : Job) : Keeps (Adjusted job) (add job) :=
  gentle_reduced.popInt.bind fun _ => gentle_reduced.popInt.bind fun _ =>
    keeps_ite (keeps_push (offered_plain nofun)) (keeps_taken (gentle_reduced.throw _))

theorem adjusted_castTo (job : Job) (tag : UInt8) : Keeps (Adjusted job) (castTo job tag) := by
  cases known : ParamKind.ofTag? tag with
  | none =>
    simp only [castTo, known]
    exact keeps_taken (gentle_reduced.throw _)
  | some kind =>
    intro frame
    have first := gentle_reduced.popValue frame
    simp only [castTo, known, bind_apply]
    cases taken : popValue frame with
    | error fault last =>
      rw [taken] at first
      exact .taken first
    | ok value next =>
      rw [taken] at first
      obtain ⟨below, split, rfl⟩ := popValue_eq_ok_iff.1 taken
      have member : .value value ∈ frame.stack := split ▸ Array.mem_push_self
      exact adjusted_push first (offered_narrow member)

/-- What a step may change of stack, slots, output and calls. -/
inductive Change (job : Job) (frame : Frame) : Frame → Prop
  | adjusted {next : Frame} : Adjusted job frame next → Change job frame next
  /-- The topmost values are passed to a handler; the result is put on the stack if there is
  room. -/
  | called {next : Frame} {handler : Handler} {args : List Value} {below new : List Cell} :
      handler ∈ job.routine.handlers → args.length = handler.arity →
      frame.stack.toList = below ++ args.map .value → next.stack.toList = below ++ new →
      new = [] ∨ new = [(handler.body args).elim .void .value] ∧ below.length < job.room →
      next.locals = frame.locals → next.out = frame.out →
      next.calls = frame.calls.push ⟨handler, args⟩ → Change job frame next
  | stored {middle : Frame} {value : Value} : Reduced frame middle →
      .value value ∈ frame.stack → Change job frame { middle with out := some value }
  | cleared {middle : Frame} : Reduced frame middle →
      Change job frame { middle with out := none }

theorem keeps_adjusted {action : Action α} (h : Keeps (Adjusted job) action) :
    Keeps (Change job) action :=
  fun frame => .adjusted (h frame)

theorem eq_map_of_valuesOf {cells : List Cell} {args : List Value}
    (h : valuesOf cells = .ok args) : cells = args.map .value := by
  induction cells generalizing args with
  | nil =>
    cases h
    rfl
  | cons cell cells ih =>
    cases cell with
    | value value =>
      obtain ⟨rest, found, rfl⟩ := map_eq_ok_iff.1 h
      rw [List.map_cons, ← ih found]
    | _ => cases h

theorem change_callHandler (job : Job) (index : Nat) :
    Keeps (Change job) (callHandler job index) := by
  intro frame
  cases known : job.routine.handler? index with
  | none =>
    rw [callHandler_of_none known]
    exact .adjusted (.taken (gentle_reduced.refl frame))
  | some handler =>
    have listed : handler ∈ job.routine.handlers := Array.mem_of_getElem? known
    rw [callHandler_of_some known]
    rcases Nat.lt_or_ge frame.stack.size handler.arity with short | enough
    · rw [callKnown_of_short short]
      exact .adjusted (.taken (gentle_reduced.refl frame))
    · rw [callKnown_of_enough enough]
      split
      next => exact .adjusted (.taken (gentle_reduced.refl frame))
      next args values =>
        let base := frame.stack.size - handler.arity
        have tops : frame.stack.toList.drop base = args.map .value := by
          rw [← eq_map_of_valuesOf values, Array.toList_extract, List.extract_eq_take_drop,
            List.take_of_length_le]
          exact Nat.le_of_eq (by rw [List.length_drop, Array.length_toList])
        have count : args.length = handler.arity := by
          have lengths := congrArg List.length tops
          rw [List.length_drop, Array.length_toList, List.length_map] at lengths
          omega
        have split : frame.stack.toList = frame.stack.toList.take base ++ args.map .value := by
          rw [← tops, List.take_append_drop]
        have kept : (frame.stack.take base).toList = frame.stack.toList.take base := by
          rw [Array.take_eq_extract, Array.toList_extract, List.extract_eq_take_drop,
            List.drop_zero, Nat.sub_zero]
        rw [push]
        split
        next fits =>
          refine .called listed count split ?_ (.inr ⟨rfl, ?_⟩) rfl rfl rfl
          · rw [← kept, ← Array.toList_push]
            rfl
          · rw [← kept, Array.length_toList]
            exact fits
        next =>
          refine .called listed count split ?_ (.inl rfl) rfl rfl rfl
          rw [List.append_nil]
          exact kept

theorem change_storeOut (job : Job) : Keeps (Change job) storeOut := by
  intro frame
  have first := gentle_reduced.popCell frame
  rw [storeOut, bind_apply]
  cases taken : pop frame with
  | error fault last =>
    rw [taken] at first
    exact .adjusted (.taken first)
  | ok cell next =>
    rw [taken] at first
    obtain ⟨below, split, -⟩ := pop_eq_ok_iff.1 taken
    cases cell with
    | value value =>
      have member : .value value ∈ frame.stack := split ▸ Array.mem_push_self
      exact .stored first member
    | _ => exact .adjusted (.taken first)

theorem change_execute (job : Job) (opcode : Opcode) (immediate : Int) :
    Keeps (Change job) (execute job opcode immediate) := by
  cases opcode with
  | loadKey | loadArgs | pushDigit | pushSmall | pushInt =>
    refine keeps_adjusted ((keeps_push (offered_plain ?_)).answer _)
    exact nofun
  | keyLength => exact keeps_adjusted ((adjusted_keyLength job).answer _)
  | keyCharAt => exact keeps_adjusted ((adjusted_keyCharAt job).answer _)
  | loadElem => exact keeps_adjusted ((adjusted_loadElem job).answer _)
  | loadLocal0 | loadLocal1 | loadLocal =>
    exact keeps_adjusted ((adjusted_loadLocal job _).answer _)
  | storeLocal0 | storeLocal1 | storeLocal =>
    exact keeps_adjusted (keeps_taken ((gentle_reduced.storeLocal _).answer _))
  | add => exact keeps_adjusted ((adjusted_add job).answer _)
  | branchNeShort | branchNe =>
    exact keeps_adjusted (keeps_taken ((gentle_reduced.branchNe job _).answer _))
  | ret => exact keeps_adjusted (keeps_taken (gentle_reduced.popInt.answer _))
  | castTo => exact keeps_adjusted ((adjusted_castTo job _).answer _)
  | callHandler => exact (change_callHandler job _).answer _
  | storeOut => exact (change_storeOut job).answer _
  | clearOut => exact fun frame => .cleared (gentle_reduced.refl frame)

theorem Change.of_moved {ip steps : Nat}
    (h : Change job { frame with ip := ip, steps := steps } last) : Change job frame last := by
  have same : Reduced frame { frame with ip := ip, steps := steps } :=
    ⟨List.prefix_rfl, rfl, rfl, rfl⟩
  cases h with
  | adjusted h => exact .adjusted (.after same h)
  | called listed count split stack new slots out calls =>
    exact .called listed count split stack new slots out calls
  | stored h member => exact .stored (gentle_reduced.trans same h) member
  | cleared h => exact .cleared (gentle_reduced.trans same h)

/-- A step changes nothing else, whether it goes on, answers or fails. -/
theorem change_step (job : Job) : Keeps (Change job) (step job) := by
  intro frame
  cases found : job.routine.code.decodeAt? frame.ip with
  | none =>
    rw [step_of_undecoded found]
    exact .adjusted (.taken ⟨List.prefix_rfl, rfl, rfl, rfl⟩)
  | some decoded =>
    rw [step_of_decodeAt? found]
    exact (change_execute job decoded.opcode (decoded.immediate.getD 0) _).of_moved

end TrieDispatch.Machine
