import TrieDispatch.Proofs.Equivalence
import TrieDispatch.Proofs.Machine.Limits
import TrieDispatch.Proofs.Program.Storing

/-! # Interrupted calls -/

namespace TrieDispatch

open Machine Program

/-- A lookup calls nothing or just the handler that has the key for its name, it tells which, and
its output is what this handler produced. -/
theorem Directory.Coherent.call_sound {directory : Directory} (h : directory.Coherent)
    (key : String) (args : List Value) :
    let reply := directory.call key args
    (∃ found, reply.found = .ok found ∧ reply.calls.size = found.toNat) ∧
      (∀ invocation ∈ reply.calls, invocation.handler ∈ directory.handlers ∧
        invocation.handler.name = key ∧
        invocation.args = bindArgs invocation.handler.params args) ∧
      (reply.out = none ∨ ∃ invocation ∈ reply.calls, reply.out = invocation.result) := by
  intro reply
  by_cases known : key ∈ directory.handlers.toList.map Handler.name
  · obtain ⟨⟨position, handler⟩, entry⟩ := Option.isSome_iff_exists.1 (h.exists_entry known)
    have found := (Directory.located?_eq_some entry).2
    have named := h.name_of_located? entry
    have called : reply = _ := Directory.call_of_entry entry args
    rw [called]
    refine ⟨⟨true, rfl, rfl⟩, ?_, .inr ⟨_, Array.mem_singleton.2 rfl, rfl⟩⟩
    intro invocation member
    obtain rfl := Array.mem_singleton.1 member
    exact ⟨Array.mem_of_getElem? found, named, rfl⟩
  · have missed : reply = _ := h.call_of_not_mem known args
    rw [missed]
    exact ⟨⟨false, rfl, rfl⟩, by simp, .inl rfl⟩

theorem out_of_no_steps (routine : Routine) {settings : MachineSettings}
    (none : settings.maxSteps = 0) (key : String) (out : Option Value) (args : List Value) :
    (routine.call settings key out args).out = out := by
  simp only [Routine.call, Machine.run, none, loop]
  rfl

/-- The output before a call that takes any step does not matter. -/
theorem call_forgets {directory : Directory} {forest : Forest} {maxPasses : Nat}
    {encoding : Encoding}
    (encoded : (forest.program directory).encode maxPasses = .ok encoding) (point : HookPoint)
    (table : Array Handler) (depth : Nat) (settings : MachineSettings) (key : String)
    (args : List Value) (out other : Option Value) (positive : 0 < settings.maxSteps) :
    let routine := Routine.ofEncoding point encoding table slotCount depth
    routine.call settings key other args = routine.call settings key out args := by
  intro routine
  have same : Machine.run routine settings key other args =
      Machine.run routine settings key out args := by
    obtain ⟨more, steps⟩ := Nat.exists_eq_add_one.2 positive
    rw [run_of_encode point table slotCount depth settings key other args encoded,
      run_of_encode point table slotCount depth settings key out args encoded]
    simp only [Program.run, steps, loop, Forest.step_start]
  simp only [Routine.call, same]

section

variable {handlers : List Handler} {directory : Directory} {trie : Trie} {emission : Emission}
  {depth maxPasses : Nat} {encoding : Encoding}
  (stages : Stages handlers directory trie emission depth)
  (encoded : (trie.branches.program directory).encode maxPasses = .ok encoding)
  (point : HookPoint) (settings : MachineSettings) (key : String) (args : List Value)

include stages encoded

/-- A call is answered as by a lookup, or it is cut off in the frame that its steps lead to. -/
theorem Stages.call_cut (out : Option Value) :
    let routine := Routine.ofEncoding point encoding directory.handlers slotCount depth
    let job := Job.of routine settings key args
    routine.call settings key out args = directory.call key args ∨
      ∃ last, frameAfter (Machine.step job) settings.maxSteps (.start routine out) = some last ∧
        routine.call settings key out args =
          ⟨.error (.stepLimit settings.maxSteps), last.out, last.calls⟩ ∧
        last.calls.toList <+: (directory.call key args).calls.toList := by
  intro routine job
  let steps := max settings.maxSteps encoding.offsets.size
  have within : settings.maxSteps ≤ steps := Nat.le_max_left _ _
  have answered := stages.call_eq out encoded point { settings with maxSteps := steps } key args
    (Nat.le_max_right _ _)
  rw [← answered]
  rcases loop_cut (Machine.step job) within (.start routine out) with ⟨last, reached, cut⟩ | same
  · refine .inr ⟨last, reached, ?_, moreCalls_of_frameAfter reached within⟩
    simp only [Routine.call, Machine.run]
    rw [cut]
  · exact .inl (congrArg (fun ran => (⟨ran.1, ran.2.out, ran.2.calls⟩ : Reply)) same)

theorem Stages.out_of_frameAfter {out : Option Value} {count : Nat} {frame : Frame}
    (reached : frameAfter (Machine.step (.of (.ofEncoding point encoding directory.handlers
      slotCount depth) settings key args)) (count + 1) (.start (.ofEncoding point encoding
      directory.handlers slotCount depth) out) = some frame) :
    frame.out = none ∨ ∃ invocation ∈ frame.calls, frame.out = invocation.result := by
  obtain ⟨forms, settled, -⟩ := place_of_encode encoded
  rw [frameAfter_of_encode point directory.handlers slotCount depth settings key out args
    encoded] at reached
  obtain ⟨before, arrived, rfl⟩ := Option.map_eq_some_iff.1 reached
  exact (Forest.supplied_of_frameAfter stages.callable settled.toLowered arrived).out

end

/-- A call of a compiled routine fails only for its steps. It calls at most the handler with the key
for its name, with the arguments bound to its parameters. With no step the output stays; otherwise
it is empty or the result of the call made, whatever it was before. -/
theorem compiled_call_within_limits {point : HookPoint} {handlers : List Handler}
    {settings : CompilerSettings} {routine : Routine}
    (compiled : compile point handlers settings = .ok routine) (machine : MachineSettings)
    (key : String) (out : Option Value) (args : List Value) :
    let reply := routine.call machine key out args
    (∀ fault, reply.found = .error fault → fault = .stepLimit machine.maxSteps) ∧
      reply.calls.size ≤ 1 ∧
      (∀ invocation ∈ reply.calls, invocation.handler ∈ handlers ∧
        invocation.handler.name = key ∧
        invocation.args = bindArgs invocation.handler.params args) ∧
      (reply.found = .ok true → reply.calls.size = 1) ∧
      (reply.found = .ok false → reply.calls.size = 0) ∧
      (machine.maxSteps = 0 → reply.out = out) ∧
      (0 < machine.maxSteps →
        (reply.out = none ∨ ∃ invocation ∈ reply.calls, reply.out = invocation.result) ∧
        ∀ other, routine.call machine key other args = reply) := by
  intro reply
  obtain ⟨trie, emission, depth, encoding, stages, encoded, rfl⟩ := stages_of_compile compiled
  obtain ⟨⟨found, answer, count⟩, own, supplied⟩ := stages.coherent.call_sound key args
  have forgets := call_forgets encoded point (Directory.ofList handlers).handlers depth machine key
    args out
  have cut := stages.call_cut encoded point machine key args out
  rw [stages.handlers_eq] at own forgets cut
  simp only [List.mem_toArray] at own
  have untouched (zero : machine.maxSteps = 0) : reply.out = out :=
    out_of_no_steps _ zero key out args
  have once : found.toNat ≤ 1 := Bool.toNat_le found
  rcases cut with same | ⟨last, reached, same, calls⟩
  · have same : reply = _ := same
    rw [same, answer, count]
    refine ⟨nofun, once, own, ?_, ?_, fun zero => same ▸ untouched zero, ?_⟩
    · rintro ⟨⟩
      rfl
    · rintro ⟨⟩
      rfl
    · exact fun positive => ⟨supplied, fun other => (forgets other positive).trans same⟩
  · have same : reply = _ := same
    have sizes := calls.length_le
    rw [Array.length_toList, Array.length_toList, count] at sizes
    rw [same]
    refine ⟨?_, Nat.le_trans sizes once, ?_, nofun, nofun, fun zero => same ▸ untouched zero, ?_⟩
    · rintro fault ⟨⟩
      rfl
    · intro invocation member
      exact own invocation (Array.mem_toList_iff.1 (calls.subset (Array.mem_toList_iff.2 member)))
    · intro positive
      refine ⟨?_, fun other => (forgets other positive).trans same⟩
      obtain ⟨more, steps⟩ := Nat.exists_eq_add_one.2 positive
      rw [steps, ← stages.handlers_eq] at reached
      exact stages.out_of_frameAfter encoded point machine key args reached

private def counter : List Handler := [⟨"n", [], fun args => some (.long args.length)⟩]

/-- After nineteen steps the handler has been called, but its result is not stored yet. -/
theorem compiled_call_within_limits_counter :
    ∃ routine, compile .standard counter default = .ok routine ∧
      let reply := routine.call ⟨0, 19, false⟩ "n" (some .null) []
      (∀ fault, reply.found = .error fault → fault = .stepLimit 19) ∧ reply.calls.size ≤ 1 ∧
        (reply.out = none ∨ ∃ invocation ∈ reply.calls, reply.out = invocation.result) := by
  have accepted : (match compile .standard counter default with
      | .ok _ => true
      | .error _ => false) = true := by
    decide +kernel
  cases compiled : compile .standard counter default with
  | error error =>
    rw [compiled] at accepted
    cases accepted
  | ok routine =>
    obtain ⟨faults, once, -, -, -, -, supplied⟩ :=
      compiled_call_within_limits compiled ⟨0, 19, false⟩ "n" (some .null) []
    exact ⟨routine, rfl, faults, once, (supplied (by decide)).1⟩

end TrieDispatch
