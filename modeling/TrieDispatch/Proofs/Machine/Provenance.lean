import TrieDispatch.Machine.Run
import TrieDispatch.Proofs.Machine.Stacking

/-! # Where values come from -/

namespace TrieDispatch.Machine

variable {job : Job} {out : Option Value} {slotCount : Nat} {first frame next : Frame}

/-- The value is null, an argument, or what one of the calls has produced. -/
def Sourced (args : List Value) (calls : List Invocation) (value : Value) : Prop :=
  value = .null ∨ value ∈ args ∨ ∃ invocation ∈ calls, invocation.result = some value

theorem Sourced.push {args : List Value} {calls : Array Invocation} {value : Value}
    (h : Sourced args calls.toList value) (invocation : Invocation) :
    Sourced args (calls.push invocation).toList value := by
  rw [Array.toList_push]
  exact h.imp_right (Or.imp_right fun ⟨earlier, member, result⟩ =>
    ⟨earlier, List.mem_append_left _ member, result⟩)

/-- Everything in the frame is accounted for, where `out` is the output there was at first. -/
structure Accounted (job : Job) (out : Option Value) (slotCount : Nat) (frame : Frame) :
    Prop where
  stack : ∀ value, .value value ∈ frame.stack →
    Sourced job.args.toList frame.calls.toList value
  out : frame.out = out ∨ frame.out = none ∨
    ∃ value, frame.out = some value ∧ Sourced job.args.toList frame.calls.toList value
  calls : ∀ position invocation, frame.calls[position]? = some invocation →
    invocation.args.length = invocation.handler.arity ∧
      ∀ value ∈ invocation.args, Sourced job.args.toList (frame.calls.toList.take position) value
  room : frame.stack.size ≤ job.room
  slots : frame.locals.size = slotCount

theorem accounted_start (job : Job) (routine : Routine) (out : Option Value) :
    Accounted job out routine.slotCount (.start routine out) where
  stack value member := absurd member (Array.not_mem_empty _)
  out := .inl rfl
  calls position invocation made := by cases made
  room := Nat.zero_le _
  slots := Array.size_replicate

theorem Accounted.reduced (h : Accounted job out slotCount frame) (reduced : Reduced frame next) :
    Accounted job out slotCount next where
  stack value member := by
    rw [reduced.calls]
    exact h.stack value (reduced.mem member)
  out := by
    rw [reduced.out, reduced.calls]
    exact h.out
  calls := by
    rw [reduced.calls]
    exact h.calls
  room := Nat.le_trans (by simpa using reduced.stack.length_le) h.room
  slots := reduced.slots.trans h.slots

theorem Accounted.adjusted (h : Accounted job out slotCount frame)
    (adjusted : Adjusted job frame next) : Accounted job out slotCount next := by
  cases adjusted with
  | taken reduced => exact h.reduced reduced
  | @put middle cell reduced fits offered =>
    have kept := h.reduced reduced
    refine ⟨fun value member => ?_, kept.out, kept.calls, ?_, kept.slots⟩
    · rcases Array.mem_push.1 member with member | same
      · exact kept.stack value member
      · rcases offered value same.symm with null | argument | earlier
        · exact .inl null
        · exact .inr (.inl (Array.mem_toList_iff.2 argument))
        · have sourced := h.stack value earlier
          rwa [← reduced.calls] at sourced
    · rw [Array.size_push]
      exact fits

theorem Accounted.change (h : Accounted job out slotCount frame) (change : Change job frame next) :
    Accounted job out slotCount next := by
  cases change with
  | adjusted adjusted => exact h.adjusted adjusted
  | stored reduced member =>
    have kept := h.reduced reduced
    refine ⟨kept.stack, .inr (.inr ⟨_, rfl, ?_⟩), kept.calls, kept.room, kept.slots⟩
    have sourced := h.stack _ member
    rwa [← reduced.calls] at sourced
  | cleared reduced =>
    have kept := h.reduced reduced
    exact ⟨kept.stack, .inr (.inl rfl), kept.calls, kept.room, kept.slots⟩
  | @called _ handler args below new listed count split stack added slots same calls =>
    have lies (value : Value) (member : .value value ∈ frame.stack.toList) :
        Sourced job.args.toList frame.calls.toList value :=
      h.stack value (Array.mem_toList_iff.1 member)
    have produced (value : Value) (member : .value value ∈ new) :
        handler.body args = some value := by
      rcases added with rfl | ⟨rfl, -⟩
      · cases member
      · have cell := List.mem_singleton.1 member
        cases result : handler.body args with
        | none =>
          rw [result] at cell
          cases cell
        | some other =>
          rw [result] at cell
          cases cell
          rfl
    refine ⟨fun value member => ?_, ?_, fun position invocation made => ?_, ?_, ?_⟩
    · rw [calls]
      rw [← Array.mem_toList_iff, stack] at member
      rcases List.mem_append.1 member with kept | put
      · have sourced := lies value (split ▸ List.mem_append_left _ kept)
        exact sourced.push _
      · refine .inr (.inr ⟨⟨handler, args⟩, ?_, produced value put⟩)
        rw [Array.toList_push]
        exact List.mem_append_right _ (List.mem_singleton.2 rfl)
    · rw [calls, same]
      exact h.out.imp_right (Or.imp_right fun ⟨value, stored, sourced⟩ =>
        ⟨value, stored, sourced.push _⟩)
    · rw [calls, Array.getElem?_push] at made
      rw [calls, Array.toList_push]
      split at made
      next last =>
        obtain rfl := Option.some.inj made
        subst last
        refine ⟨count, fun value member => ?_⟩
        rw [List.take_left' Array.length_toList]
        exact lies value (split ▸ List.mem_append_right _ (List.mem_map_of_mem member))
      next =>
        have inside := (Array.getElem?_eq_some_iff.1 made).1
        rw [List.take_append_of_le_length (by simpa using Nat.le_of_lt inside)]
        exact h.calls position invocation made
    · have before := congrArg List.length split
      have after := congrArg List.length stack
      have room := h.room
      simp only [Array.length_toList, List.length_append] at before after
      rcases added with rfl | ⟨rfl, fits⟩
      · rw [List.length_nil] at after
        omega
      · rw [List.length_singleton] at after
        omega
    · rw [slots]
      exact h.slots

/-- At every point of a run of any byte code each value is null, an argument, what an earlier call
has produced, or the output there was at first. Every call is passed as many values as its handler
declares, in the order in which they were put on the stack. -/
theorem frames_accounted_for (routine : Routine) (settings : MachineSettings) (key : String)
    (out : Option Value) (args : List Value) :
    let job := Job.of routine settings key args
    let first := Frame.start routine out
    Visits (step job) settings.maxSteps first (run routine settings key out args).2 ∧
      ∀ frame, Visits (step job) settings.maxSteps first frame →
        (∀ value, .value value ∈ frame.stack → Sourced args frame.calls.toList value) ∧
        (frame.out = out ∨ frame.out = none ∨
          ∃ value, frame.out = some value ∧ Sourced args frame.calls.toList value) ∧
        (∀ position invocation, frame.calls[position]? = some invocation →
          invocation.args.length = invocation.handler.arity ∧
            (∀ value ∈ invocation.args, Sourced args (frame.calls.toList.take position) value) ∧
            PassedInOrder (step job) first position invocation) ∧
        frame.stack.size ≤ max settings.maxStack routine.maxDepth ∧
        frame.locals.size = routine.slotCount := by
  intro job first
  refine ⟨visits_loop _ _ _, fun frame visited => ?_⟩
  have keeps (frame : Frame) (accounted : Accounted job out routine.slotCount frame) :
      Accounted job out routine.slotCount (left (step job frame)) :=
    accounted.change (change_step job frame)
  have accounted := visited.invariant keeps (accounted_start job routine out)
  refine ⟨accounted.stack, accounted.out, fun position invocation made => ?_, accounted.room,
    accounted.slots⟩
  obtain ⟨count, sourced⟩ := accounted.calls position invocation made
  exact ⟨count, sourced, passedInOrder_of_visits rfl rfl visited made⟩

private def relay : Routine where
  point := .standard
  code := #[0x04, 0x20, 0x05, 0x51, 0, 0, 0x51, 0, 0, 0x52]
  offsets := #[]
  handlers := #[⟨"wrap", [.any], fun args => some (.list args)⟩]
  slotCount := 0
  maxDepth := 0
  stats := default

theorem frames_accounted_for_relay :
    let ran := run relay default "" none [.long 7]
    ran.1 = .error .outOfCode ∧ ∃ invocation, ran.2.calls[1]? = some invocation ∧
      invocation.args.length = 1 ∧
      ∀ value ∈ invocation.args, Sourced [.long 7] (ran.2.calls.toList.take 1) value := by
  intro ran
  obtain ⟨ended, accounted⟩ := frames_accounted_for relay default "" none [.long 7]
  obtain ⟨-, -, calls, -⟩ := accounted ran.2 ended
  have fault : ran.1 = .error .outOfCode := by decide +kernel
  have second : ran.2.calls[1]?.map (·.handler.arity) = some 1 := by decide +kernel
  obtain ⟨invocation, made, arity⟩ := Option.map_eq_some_iff.1 second
  obtain ⟨count, sourced, -⟩ := calls 1 invocation made
  exact ⟨fault, invocation, made, count.trans arity, sourced⟩

end TrieDispatch.Machine
