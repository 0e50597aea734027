import Mathlib.Algebra.Order.BigOperators.Group.List
import Mathlib.Algebra.Order.Group.Nat
import TrieDispatch.Dispatch
import TrieDispatch.Proofs.Compiling
import TrieDispatch.Proofs.Program.StackSafety
import TrieDispatch.Proofs.Program.Walking

/-! # Compiled dispatch agrees with lookup -/

namespace TrieDispatch

open Machine Program

namespace Forest

variable {directory : Directory} {epilogue start bound : Nat} {program : Program}

theorem height_le_codeSize (directory : Directory) (forest : Forest) :
    forest.height ≤ forest.codeSize directory := by
  induction forest with
  | nil => exact Nat.le_refl 0
  | cons label id name children siblings below beside =>
    rw [height, codeSize]
    omega

/-- A branch that skips a node skips all that is below it, so near targets keep the trie low. -/
theorem height_le {forest : Forest}
    (contains : program.Contains start (forest.code directory epilogue start))
    (fits : start + forest.codeSize directory ≤ epilogue)
    (near : ∀ {position target : Nat}, program[position]? = some (.branchTo target) →
      target ≤ position + bound) : forest.height ≤ bound := by
  induction forest generalizing start with
  | nil => exact Nat.zero_le _
  | cons label id name children siblings below beside =>
    rw [codeSize] at fits
    rw [height]
    have places := places_of_contains contains
    have lower := height_le_codeSize directory children
    have reach := near (places.compare.getElem? 4 rfl)
    have rest := beside places.beside (by omega)
    refine Nat.max_le.2 ⟨?_, rest⟩
    split at reach <;> omega

end Forest

namespace Directory

variable {directory : Directory} {name : String}

theorem call_of_entry {position : Nat} {handler : Handler}
    (h : directory.located? name = some (position, handler)) (args : List Value) :
    directory.call name args = ⟨.ok true, handler.body (bindArgs handler.params args),
      #[⟨handler, bindArgs handler.params args⟩]⟩ := by
  obtain ⟨placed, found⟩ := located?_eq_some h
  have known : directory.get? name = some handler := by
    rw [get?, placed, Option.bind_some, found]
  simp only [call, known, Invocation.result]

theorem Coherent.call_of_not_mem (h : directory.Coherent)
    (unknown : name ∉ directory.handlers.toList.map Handler.name) (args : List Value) :
    directory.call name args = ⟨.ok false, none, #[]⟩ := by
  have missing : directory.position? name = none := by
    apply Option.eq_none_iff_forall_ne_some.2
    intro position placed
    obtain ⟨handler, found, named⟩ := (h name position).1 placed
    exact unknown (List.mem_map.2 ⟨handler, Array.mem_toList_iff.2 (Array.mem_of_getElem? found),
      named⟩)
  simp only [call, get?, missing, Option.bind_none]

end Directory

namespace Forest

variable {directory : Directory} {epilogue total : Nat} {program : Program} {job : Job}
  {args : List Value} {first : Frame} {name : Option String}

theorem WalkEnds.answers (h : WalkEnds directory epilogue program job args first total name)
    (contains : program.Contains epilogue (answer false)) (roomy : 2 ≤ job.room) :
    ∃ last final found, program.Leads job first last ∧
      program.step job last = .ok (some found) final ∧ final.steps = total + 2 ∧
      (⟨.ok found, final.out, final.calls⟩ : Reply) =
        name.elim ⟨.ok false, none, #[]⟩ fun name => directory.call name args := by
  cases h with
  | called entry answered reached =>
    obtain ⟨last, leads, ends⟩ := leads_answer _ answered roomy
    refine ⟨last, _, true, reached.trans leads, ends, rfl, ?_⟩
    rw [Option.elim_some, Directory.call_of_entry entry]
  | missed reached =>
    obtain ⟨last, leads, ends⟩ := leads_answer _ contains roomy
    exact ⟨last, _, false, reached.trans leads, ends, rfl, rfl⟩

end Forest

section

variable {handlers : List Handler} {directory : Directory} {trie : Trie} {emission : Emission}
  {depth : Nat} {job : Job} {args : List Value} (out : Option Value)

theorem Stages.walkEnds (stages : Stages handlers directory trie emission depth)
    (table : job.routine.handlers = directory.handlers) (given : job.args = args.toArray)
    (roomy : 2 ≤ job.room)
    (roomier : ∀ handler ∈ directory.handlers, handler.arity + 2 ≤ job.room)
    (low : trie.branches.height < 2 ^ 62) :
    Forest.WalkEnds directory (trie.branches.codeEnd directory) (trie.branches.program directory)
      job args ⟨0, #[], #[0, 0], out, #[], 0⟩
      (prologue.length + trie.branches.walkSteps directory job.key.toList)
      (trie.branches.nameAt job.key.toList) := by
  have begun := leads_prologue (Forest.contains_program directory trie.branches).left roomy out
  refine Forest.WalkEnds.after ?_ begun
  have contains := Forest.contains_code directory trie.branches
  have walks (nonempty : trie.branches.isNil = false) := Forest.walk prologue.length stages.callable
    table given roomy roomier contains stages.holds.ended nonempty stages.known
    (List.drop_zero : job.key.toList.drop 0 = _) (by omega)
  have ends := Forest.walk_on prologue.length walks
  cases empty : trie.branches.isNil with
  | true =>
    rw [empty, if_pos rfl] at ends
    have codeEnd : trie.branches.codeEnd directory = prologue.length := by
      rw [Forest.eq_nil_of_isNil empty]
      rfl
    rwa [codeEnd] at ends ⊢
  | false => exact walks empty

theorem Stages.call_nameAt (stages : Stages handlers directory trie emission depth)
    (key : String) (args : List Value) :
    ((trie.branches.nameAt key.toList).elim ⟨.ok false, none, #[]⟩ fun name =>
      directory.call name args) = directory.call key args := by
  cases ends : trie.branches.nameAt key.toList with
  | some name =>
    obtain ⟨-, same⟩ := (stages.holds.nameAt_iff _ _).1 ends
    rw [String.toList_inj.1 same, Option.elim_some]
  | none =>
    have unknown : key ∉ directory.handlers.toList.map Handler.name := by
      intro member
      rw [stages.handlers_eq] at member
      have found := (stages.holds.nameAt_iff _ _).2 ⟨member, rfl⟩
      rw [ends] at found
      cases found
    rw [Option.elim_none, stages.coherent.call_of_not_mem unknown]

/-- The program of accepted handlers, given room enough, ends by itself and answers every key. -/
theorem Stages.ends_program (stages : Stages handlers directory trie emission depth)
    {maxPasses : Nat} {encoding : Encoding}
    (encoded : (trie.branches.program directory).encode maxPasses = .ok encoding)
    (table : job.routine.handlers = directory.handlers) (given : job.args = args.toArray)
    {key : String} (spelled : job.key.toList = key.toList) (slots : job.routine.slotCount = 2)
    (roomy : 2 ≤ job.room)
    (roomier : ∀ handler ∈ directory.handlers, handler.arity + 2 ≤ job.room) :
    ∃ count last final found, frameAfter ((trie.branches.program directory).step job) count
        (.start job.routine out) = some last ∧
      (trie.branches.program directory).step job last = .ok (some found) final ∧
      count < (trie.branches.program directory).size ∧
      final.steps = prologue.length + trie.branches.walkSteps directory key.toList + 2 ∧
      (⟨.ok found, final.out, final.calls⟩ : Reply) = directory.call key args := by
  obtain ⟨forms, settled, -⟩ := place_of_encode encoded
  have low := Forest.height_le (Forest.contains_code directory trie.branches) (Nat.le_refl _)
    fun present => settled.target_le present
  have ends := stages.walkEnds out table given roomy roomier (by omega)
  obtain ⟨last, final, found, ⟨count, reached⟩, taken, steps, replies⟩ :=
    ends.answers (Forest.contains_epilogue directory trie.branches) roomy
  have start : Frame.start job.routine out = ⟨0, #[], #[0, 0], out, #[], 0⟩ := by
    rw [Frame.start, slots]
    rfl
  -- Every step moves the pointer on, so there are no more steps than instructions.
  have forward {position target : Nat} (present : (trie.branches.program directory)[position]? =
      some (.branchTo target)) : position < target :=
    (Forest.goesOn_of_branchTo stages.callable present).forward
  have moved := ip_add_le_of_frameAfter settled.toLowered forward reached
  have inside : last.ip < (trie.branches.program directory).size := by
    by_contra outside
    rw [step_of_outside (Nat.le_of_not_lt outside)] at taken
    cases taken
  rw [spelled, stages.call_nameAt] at replies
  rw [spelled] at steps
  exact ⟨count, last, final, found, start ▸ reached, taken, by omega, steps, replies⟩

theorem Stages.run_eq (stages : Stages handlers directory trie emission depth)
    {maxPasses : Nat} {encoding : Encoding}
    (encoded : (trie.branches.program directory).encode maxPasses = .ok encoding)
    (point : HookPoint) (settings : MachineSettings) (key : String) (args : List Value) :
    let routine := Routine.ofEncoding point encoding directory.handlers slotCount depth
    let program := trie.branches.program directory
    ∃ job count last final found,
      Machine.run routine settings key out args = (fun ran =>
        (ran.1, ran.2.moved encoding.place))
          (program.run job settings.maxSteps (.start routine out)) ∧
      frameAfter (program.step job) count (.start routine out) = some last ∧
      program.step job last = .ok (some found) final ∧ count < encoding.offsets.size ∧
      final.steps = prologue.length + trie.branches.walkSteps directory key.toList + 2 ∧
      (⟨.ok found, final.out, final.calls⟩ : Reply) = directory.call key args := by
  intro routine program
  let job := Job.of routine settings key args
  -- The walk is taken with room for any call; the survey shows that the room of the job is enough.
  let room := job.room + 2 + (directory.handlers.toList.map Handler.arity).sum
  have roomier (handler : Handler) (member : handler ∈ directory.handlers) :
      handler.arity + 2 ≤ (job.withRoom room).room := by
    have : handler.arity ≤ (directory.handlers.toList.map Handler.arity).sum :=
      List.le_sum_of_mem (List.mem_map_of_mem (Array.mem_toList_iff.2 member))
    show handler.arity + 2 ≤ job.room + 2 + _
    omega
  have roomy : 2 ≤ (job.withRoom room).room := by
    show 2 ≤ job.room + 2 + _
    omega
  obtain ⟨forms, settled, -, size, -⟩ := place_of_encode encoded
  obtain ⟨survey, surveyed, deepest⟩ := exists_survey_of_maxDepth stages.depth_eq
  have more : job.room ≤ room := by
    show job.room ≤ job.room + 2 + _
    omega
  have roomless := run_withRoom settled.toLowered surveyed out
    (deepest ▸ Nat.le_max_right _ _ : survey.deepest ≤ job.room) more settings.maxSteps
  have given : (job.withRoom room).args = args.toArray := rfl
  have spelled : (job.withRoom room).key.toList = key.toList := List.toList_toArray
  obtain ⟨count, last, final, found, reached, taken, within, steps, replies⟩ :=
    stages.ends_program out encoded rfl given spelled rfl roomy roomier
  refine ⟨job.withRoom room, count, last, final, found, ?_, reached, taken, size ▸ within, steps,
    replies⟩
  exact (run_of_encode point directory.handlers slotCount depth settings key out args encoded).trans
    (congrArg (fun ran => (ran.1, ran.2.moved encoding.place)) roomless.symm)

theorem Stages.call_eq (stages : Stages handlers directory trie emission depth)
    {maxPasses : Nat} {encoding : Encoding}
    (encoded : (trie.branches.program directory).encode maxPasses = .ok encoding)
    (point : HookPoint) (settings : MachineSettings) (key : String) (args : List Value)
    (enough : encoding.offsets.size ≤ settings.maxSteps) :
    (Routine.ofEncoding point encoding directory.handlers slotCount depth).call settings key out
      args = directory.call key args := by
  obtain ⟨job, count, last, final, found, same, reached, taken, within, -, replies⟩ :=
    stages.run_eq out encoded point settings key args
  have ends := loop_of_frameAfter_ok reached taken (Nat.lt_of_lt_of_le within enough)
    settings.maxSteps
  rw [Program.run, ends] at same
  rw [← replies, Routine.call, same]
  rfl

end

/-- A compiled routine that may take as many steps as it has instructions answers every call as a
lookup in the directory of its handlers does. It never faults, and calls nothing for a key that no
handler has. -/
theorem compiled_call_eq_lookup {point : HookPoint} {handlers : List Handler}
    {settings : CompilerSettings} {routine : Routine}
    (compiled : compile point handlers settings = .ok routine) (machine : MachineSettings)
    (enough : routine.offsets.size ≤ machine.maxSteps) (key : String) (out : Option Value)
    (args : List Value) :
    let reply := (Dispatch.compiled routine machine).call key out args
    reply = (Dispatch.lookup (.ofList handlers)).call key out args ∧
      reply.found = .ok (decide (key ∈ handlers.map Handler.name)) ∧
      (key ∉ handlers.map Handler.name → reply = ⟨.ok false, none, #[]⟩) := by
  intro reply
  obtain ⟨trie, emission, depth, encoding, stages, encoded, rfl⟩ := stages_of_compile compiled
  have kept : (Directory.ofList handlers).handlers.toList = handlers := by
    rw [stages.handlers_eq]
  have same : reply = (Directory.ofList handlers).call key args := by
    have answered := stages.call_eq out encoded point machine key args enough
    rwa [stages.handlers_eq] at answered
  have missed (unknown : key ∉ handlers.map Handler.name) : reply = ⟨.ok false, none, #[]⟩ := by
    rw [same, stages.coherent.call_of_not_mem (by rwa [kept])]
  refine ⟨same, ?_, missed⟩
  by_cases known : key ∈ handlers.map Handler.name
  · have entered := stages.coherent.exists_entry (kept.symm ▸ known)
    obtain ⟨entry, found⟩ := Option.isSome_iff_exists.1 entered
    rw [same, Directory.call_of_entry found, decide_eq_true known]
  · rw [missed known, decide_eq_false known]

private def greeters : List Handler :=
  [⟨"ab", [.long], fun args => args[0]?⟩, ⟨"b", [], fun _ => none⟩]

theorem compiled_call_eq_lookup_greeters :
    ∃ routine, compile .standard greeters default = .ok routine ∧ routine.offsets.size = 53 ∧
      let reply := (Dispatch.compiled routine ⟨0, 53, false⟩).call "ab" none [.long 7]
      reply = (Dispatch.lookup (.ofList greeters)).call "ab" none [.long 7] ∧
        reply.found = .ok true := by
  have sized : (match compile .standard greeters default with
      | .ok routine => routine.offsets.size
      | .error _ => 0) = 53 := by
    decide +kernel
  cases compiled : compile .standard greeters default with
  | error error =>
    rw [compiled] at sized
    cases sized
  | ok routine =>
    rw [compiled] at sized
    obtain ⟨same, found, -⟩ := compiled_call_eq_lookup compiled ⟨0, 53, false⟩
      (Nat.le_of_eq sized) "ab" none [.long 7]
    exact ⟨routine, rfl, sized, same, found⟩

end TrieDispatch
