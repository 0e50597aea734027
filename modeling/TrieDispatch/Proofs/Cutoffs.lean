import TrieDispatch.Journal.Calling
import TrieDispatch.Proofs.Machine.Room

/-! # Calls cut short -/

namespace TrieDispatch

open Machine

namespace Journal

def withoutSteps (events : Array Event) : Array Event :=
  events.filter fun event => event.target != "hookdispatch::vm::step"

theorem withoutSteps_append (events more : Array Event) :
    withoutSteps (events ++ more) = withoutSteps events ++ withoutSteps more :=
  Array.filter_append Array.size_append

theorem withoutSteps_newCalls (earlier : Nat) (frame : Frame) :
    withoutSteps (newCalls earlier frame) = newCalls earlier frame := by
  rw [withoutSteps, Array.filter_eq_self]
  intro event member
  obtain ⟨invocation, -, rfl⟩ := Array.mem_map.1 member
  rfl

theorem withoutSteps_instructionReached (job : Job) (frame : Frame) (shown : Bool)
    (events : Array Event) :
    withoutSteps (if shown then events.push (instructionReached job frame) else events) =
      withoutSteps events := by
  cases shown with
  | false => rfl
  | true => exact Array.filter_push_of_neg Bool.false_ne_true (Array.size_push _)

theorem withoutSteps_returned (events : Array Event) (found : Bool) (steps : Nat) :
    withoutSteps (events.push (returned found steps)) =
      (withoutSteps events).push (returned found steps) :=
  Array.filter_push_of_pos rfl (Array.size_push _)

theorem toList_newCalls (earlier : Nat) (frame : Frame) :
    (newCalls earlier frame).toList = (frame.calls.toList.drop earlier).map handlerCalled := by
  rw [newCalls, Array.toList_map, Array.toList_extract, List.extract_eq_take_drop,
    List.take_of_length_le]
  exact Nat.le_of_eq (by rw [List.length_drop, Array.length_toList])

theorem newCalls_append {first middle last : Frame} (h : MoreCalls first middle)
    (h' : MoreCalls middle last) :
    newCalls first.calls.size middle ++ newCalls middle.calls.size last =
      newCalls first.calls.size last := by
  obtain ⟨more, all⟩ := h'
  have within : first.calls.size ≤ middle.calls.toList.length := h.length_le
  apply Array.toList_inj.1
  rw [Array.toList_append, toList_newCalls, toList_newCalls, toList_newCalls, ← all,
    List.drop_append_of_le_length within, List.drop_left' Array.length_toList, List.map_append]

theorem newCalls_size (frame : Frame) : newCalls frame.calls.size frame = #[] := by
  apply Array.toList_inj.1
  rw [toList_newCalls, ← Array.length_toList, List.drop_length, List.map_nil]

def ending : Except Fault Bool × Frame → Array Event
  | (.ok found, frame) => #[returned found frame.steps]
  | (.error _, _) => #[]

theorem withoutSteps_addSteps (job : Job) (trace : Bool) (limit budget : Nat) (frame : Frame)
    (events : Array Event) :
    let ran := loop (step job) limit budget frame
    withoutSteps (addSteps job trace budget frame events) =
      withoutSteps events ++ newCalls frame.calls.size ran.2 ++ ending ran := by
  induction budget generalizing frame events with
  | zero =>
    simp only [addSteps, loop, newCalls_size, ending, Array.append_empty]
  | succ budget ih =>
    have grown : MoreCalls _ _ := tolerant_moreCalls.step job frame
    rw [addSteps, loop]
    cases taken : step job frame with
    | error fault last =>
      simp only [withoutSteps_append, withoutSteps_instructionReached, withoutSteps_newCalls,
        ending, Array.append_empty]
    | ok answer next =>
      rw [taken] at grown
      cases answer with
      | some found =>
        simp only [withoutSteps_returned, withoutSteps_append, withoutSteps_instructionReached,
          withoutSteps_newCalls, ending]
        rfl
      | none =>
        have onward := keeps_loop tolerant_moreCalls.toMild (tolerant_moreCalls.step job) limit
          budget next
        simp only [ih, withoutSteps_append, withoutSteps_instructionReached, withoutSteps_newCalls,
          Array.append_assoc, ← newCalls_append grown onward, left]

/-- Apart from its instructions a run shows the handler calls of the reply and its end. -/
theorem withoutSteps_running (routine : Routine) (settings : MachineSettings) (key : String)
    (out : Option Value) (args : List Value) :
    withoutSteps (running routine settings key out args) =
      (routine.call settings key out args).calls.map handlerCalled ++
        ending (Machine.run routine settings key out args) := by
  have all (frame : Frame) : newCalls 0 frame = frame.calls.map handlerCalled := by
    rw [newCalls, Array.extract_size]
  have shown := withoutSteps_addSteps (.of routine settings key args) settings.trace
    settings.maxSteps settings.maxSteps (.start routine out) #[]
  refine shown.trans ?_
  rw [withoutSteps, Array.filter_empty, Array.empty_append]
  exact congrArg (· ++ _) (all _)

end Journal

/-- The reply is the full one, or it is cut off by the fault after some of the calls. -/
structure CutShort (fault : Fault) (reply full : Reply) : Prop where
  ends : reply.found = .error fault ∨ reply = full
  calls : reply.calls.toList <+: full.calls.toList

section

variable (routine : Routine) (settings : MachineSettings) (key : String) (out : Option Value)
  (args : List Value)

theorem cutShort_of_run {larger : MachineSettings} {fault : Fault}
    (h : Machine.run routine larger key out args = Machine.run routine settings key out args ∨
      ∃ last, Machine.run routine settings key out args = (.error fault, last) ∧
        MoreCalls last (Machine.run routine larger key out args).2) :
    CutShort fault (routine.call settings key out args) (routine.call larger key out args) := by
  rcases h with same | ⟨last, cut, calls⟩
  · simp only [Routine.call, same]
    exact ⟨.inr rfl, List.prefix_rfl⟩
  · simp only [Routine.call, cut]
    exact ⟨.inl rfl, calls⟩

theorem cutShort_of_maxSteps {steps : Nat} (more : settings.maxSteps ≤ steps) :
    CutShort (.stepLimit settings.maxSteps) (routine.call settings key out args)
      (routine.call { settings with maxSteps := steps } key out args) := by
  let job := Job.of routine settings key args
  apply cutShort_of_run
  rcases loop_cut (step job) more (.start routine out) with ⟨last, reached, cut⟩ | same
  · exact .inr ⟨last, cut, moreCalls_of_frameAfter reached more⟩
  · exact .inl same.symm

theorem cutShort_of_maxStack {cells : Nat} (more : settings.maxStack ≤ cells) :
    CutShort .stackOverflow (routine.call settings key out args)
      (routine.call { settings with maxStack := cells } key out args) := by
  let job := Job.of routine settings key args
  have roomier : job.room ≤ max cells routine.maxDepth :=
    Nat.max_le.2 ⟨Nat.le_trans more (Nat.le_max_left _ _), Nat.le_max_right _ _⟩
  apply cutShort_of_run
  exact loop_roomier roomier settings.maxSteps settings.maxSteps (.start routine out)

end

/-- Limits only cut a call short. Whether its instructions are shown changes nothing about it: the
rest of what is shown are the handler calls of the reply and the end of the run. -/
theorem limits_only_cut (routine : Routine) (settings : MachineSettings) (key : String)
    (out : Option Value) (args : List Value) :
    let reply := routine.call settings key out args
    (∀ steps, settings.maxSteps ≤ steps → CutShort (.stepLimit settings.maxSteps) reply
        (routine.call { settings with maxSteps := steps } key out args)) ∧
      (∀ cells, settings.maxStack ≤ cells → CutShort .stackOverflow reply
        (routine.call { settings with maxStack := cells } key out args)) ∧
      ∀ trace, routine.call { settings with trace := trace } key out args = reply ∧
        Journal.withoutSteps (Journal.running routine { settings with trace := trace } key out
          args) = reply.calls.map Journal.handlerCalled ++
            Journal.ending (Machine.run routine settings key out args) := by
  intro reply
  refine ⟨fun steps more => cutShort_of_maxSteps routine settings key out args more,
    fun cells more => cutShort_of_maxStack routine settings key out args more, fun trace => ?_⟩
  exact ⟨rfl, Journal.withoutSteps_running routine { settings with trace := trace } key out args⟩

private def crowded : Routine where
  point := .standard
  code := #[0x51, 0x00, 0x00, 0x21, 0x42]
  offsets := #[]
  handlers := #[⟨"now", [], fun _ => some .null⟩]
  slotCount := 0
  maxDepth := 0
  stats := default

/-- Without room for its result the handler has been called all the same. -/
theorem limits_only_cut_crowded :
    let reply (cells steps : Nat) := crowded.call ⟨cells, steps, false⟩ "" none []
    (reply 0 9).found = .error .stackOverflow ∧ (reply 0 9).calls.size = 1 ∧
      (reply 2 2).found = .error (.stepLimit 2) ∧ (reply 2 9).found = .ok true ∧
      CutShort .stackOverflow (reply 0 9) (reply 2 9) ∧
      CutShort (.stepLimit 2) (reply 2 2) (reply 2 9) := by
  obtain ⟨-, cells, -⟩ := limits_only_cut crowded ⟨0, 9, false⟩ "" none []
  obtain ⟨steps, -⟩ := limits_only_cut crowded ⟨2, 2, false⟩ "" none []
  exact ⟨rfl, rfl, rfl, rfl, cells 2 (by decide), steps 9 (by decide)⟩

end TrieDispatch
