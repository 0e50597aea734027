import TrieDispatch.Proofs.Program.Lockstep
import TrieDispatch.Proofs.Program.Surveys

/-! # Stack safety -/

namespace TrieDispatch

open Machine

structure DepthSurvey.Describes (survey : DepthSurvey) (frame : Frame) : Prop where
  recorded : frame.ip < survey.depths.size → survey.Reached frame.ip frame.stack.size
  within : frame.stack.size ≤ survey.deepest

namespace Program

variable {program : Program} {forms : Array Opcode} {job : Job} {survey : DepthSurvey}
  {frame next last : Frame}

theorem leadsTo_of_step (lowered : Lowered program forms) {instr : Instr}
    (present : program[frame.ip]? = some instr) (taken : program.step job frame = .ok none next) :
    instr.LeadsTo frame.ip next.ip := by
  have inside : frame.ip < program.size := (Array.getElem?_eq_some_iff.1 present).1
  obtain ⟨_, opcode, present', -, formOf⟩ := lowered.exists_form inside
  obtain rfl := Option.some.inj (present.symm.trans present')
  rw [step_of_instr present] at taken
  by_cases straight : instr.op = .branchNe
  · cases formOf with
    | branchNeShort | branchNe =>
      obtain ⟨right, middle, left, popped, first, second, -, rfl⟩ :=
        Instr.exists_popInt_of_branchNe taken
      split
      · rw [uniform_popInt.ip_eq job second, uniform_popInt.ip_eq job first]
        exact .next nofun
      · exact .target _
    | _ => cases straight
  · have stays : next.ip = frame.ip + 1 := (uniform_perform formOf straight).ip_eq job taken
    rw [stays]
    cases formOf with
    | ret =>
      obtain ⟨_, _, _, answered⟩ := bind_eq_ok taken
      cases answered
    | branchNeShort | branchNe => exact absurd rfl straight
    | _ => exact .next nofun

section

variable (lowered : Lowered program forms)
  (surveyed : program.survey job.routine.handlers = .ok survey)

include lowered surveyed

/-- A step from an instruction that the survey reached leads to the depth recorded there. -/
theorem describes_of_step (described : survey.Describes frame)
    (taken : program.step job frame = .ok none next) : survey.Describes next := by
  obtain ⟨sound, done⟩ := sound_of_survey surveyed
  rcases Nat.lt_or_ge frame.ip program.size with inside | outside
  · obtain ⟨instr, opcode, present, -, formOf⟩ := lowered.exists_form inside
    have followed := sound.followed_of_nil done
      (described.recorded (sound.size.symm ▸ inside)) present
    have leads := leadsTo_of_step lowered present taken
    rw [step_of_instr present] at taken
    obtain ⟨-, size⟩ := (balanced_perform formOf job).ok taken
    constructor
    · intro inside
      rw [size]
      exact followed.leads leads inside
    · rw [size]
      exact followed.after_le
  · rw [step_of_outside outside] at taken
    cases taken

theorem stack_fault_of_step (described : survey.Describes frame)
    (roomy : survey.deepest ≤ job.room) {fault : Fault}
    (failed : program.step job frame = .error fault last) :
    fault ≠ .stackUnderflow ∧ fault ≠ .stackOverflow := by
  obtain ⟨sound, done⟩ := sound_of_survey surveyed
  rcases Nat.lt_or_ge frame.ip program.size with inside | outside
  · obtain ⟨instr, opcode, present, -, formOf⟩ := lowered.exists_form inside
    have followed := sound.followed_of_nil done
      (described.recorded (sound.size.symm ▸ inside)) present
    rw [step_of_instr present] at failed
    rcases (balanced_perform formOf job).error failed with ordinary | ⟨-, short⟩ | ⟨-, -, full⟩
    · constructor
      · rintro rfl
        exact ordinary
      · rintro rfl
        exact ordinary
    · exact absurd followed.enough (Nat.not_le_of_lt short)
    · exact absurd (Nat.le_trans followed.after_le roomy) (Nat.not_le_of_lt full)
  · rw [step_of_outside outside] at failed
    cases failed
    constructor
    · rintro ⟨⟩
    · rintro ⟨⟩

theorem describes_of_frameAfter (out : Option Value) {count : Nat}
    (reached : frameAfter (program.step job) count (.start job.routine out) = some frame) :
    survey.Describes frame := by
  have start : survey.Describes (.start job.routine out) := by
    obtain ⟨sound, -⟩ := sound_of_survey surveyed
    refine ⟨fun inside => sound.first ?_, Nat.zero_le _⟩
    exact sound.size ▸ Nat.zero_lt_of_lt inside
  exact frameAfter_invariant (fun _ _ described taken =>
    describes_of_step lowered surveyed described taken) start reached

/-- With room for the deepest stack no run fails for its stack. -/
theorem stack_fault_of_run (out : Option Value) (roomy : survey.deepest ≤ job.room) (limit : Nat) :
    (program.run job limit (.start job.routine out)).1 ≠ .error .stackUnderflow ∧
      (program.run job limit (.start job.routine out)).1 ≠ .error .stackOverflow := by
  have ends := ends_loop (program.step job) limit limit (.start job.routine out)
  rw [Program.run]
  generalize loop (program.step job) limit limit (.start job.routine out) = outcome at ends
  cases ends with
  | limit | answer =>
    constructor
    · rintro ⟨⟩
    · rintro ⟨⟩
  | fault within reached failed =>
    have described := describes_of_frameAfter lowered surveyed out reached
    obtain ⟨under, overflow⟩ := stack_fault_of_step lowered surveyed described roomy failed
    exact ⟨fun same => under (Except.error.inj same), fun same => overflow (Except.error.inj same)⟩

theorem step_withRoom (described : survey.Describes frame) (roomy : survey.deepest ≤ job.room)
    {room : Nat} (more : job.room ≤ room) :
    program.step (job.withRoom room) frame = program.step job frame := by
  rcases Nat.lt_or_ge frame.ip program.size with inside | outside
  · obtain ⟨instr, opcode, present, -, formOf⟩ := lowered.exists_form inside
    by_cases straight : instr.op = .branchNe
    · rw [step_of_instr present, step_of_instr present]
      cases formOf with
      | branchNeShort | branchNe => rfl
      | _ => cases straight
    · rcases (uniform_perform formOf straight).roomier more
        { frame with ip := frame.ip + 1, steps := frame.steps + 1 } with same | ⟨last, overflow⟩
      · rw [step_of_instr present, step_of_instr present, same]
      · -- The survey rules out that less room made a difference.
        rw [← step_of_instr present] at overflow
        exact absurd rfl (stack_fault_of_step lowered surveyed described roomy overflow).2
  · rw [step_of_outside outside, step_of_outside outside]

theorem loop_withRoom (roomy : survey.deepest ≤ job.room) {room : Nat} (more : job.room ≤ room)
    (limit budget : Nat) {first : Frame} (described : survey.Describes first) :
    loop (program.step (job.withRoom room)) limit budget first =
      loop (program.step job) limit budget first := by
  induction budget generalizing first with
  | zero => rfl
  | succ budget ih =>
    rw [loop, loop, step_withRoom lowered surveyed described roomy more]
    cases taken : program.step job first with
    | error fault last => rfl
    | ok answer next =>
      cases answer with
      | some found => rfl
      | none => exact ih (describes_of_step lowered surveyed described taken)

/-- A run that has room for the surveyed depth goes as it would with more. -/
theorem run_withRoom (out : Option Value) (roomy : survey.deepest ≤ job.room) {room : Nat}
    (more : job.room ≤ room) (limit : Nat) :
    program.run (job.withRoom room) limit (.start job.routine out) =
      program.run job limit (.start job.routine out) :=
  loop_withRoom lowered surveyed roomy more limit limit
    (describes_of_frameAfter lowered surveyed out frameAfter_zero)

end

theorem ip_add_le_of_frameAfter (lowered : Lowered program forms)
    (forward : ∀ {position target : Nat},
      program[position]? = some ⟨.branchNe, .target target⟩ → position < target)
    {first : Frame} {count : Nat}
    (reached : frameAfter (program.step job) count first = some last) :
    first.ip + count ≤ last.ip := by
  induction count generalizing first with
  | zero =>
    cases reached
    exact Nat.le_refl _
  | succ count ih =>
    obtain ⟨next, taken, rest⟩ := frameAfter_succ_eq_some_iff.1 reached
    have moved : first.ip < next.ip := by
      rcases Nat.lt_or_ge first.ip program.size with inside | outside
      · obtain ⟨instr, _, present, -⟩ := lowered.exists_form inside
        have leads := leadsTo_of_step lowered present taken
        generalize next.ip = position at leads
        cases leads with
        | next => exact Nat.lt_succ_self _
        | target => exact forward present
      · rw [step_of_outside outside] at taken
        cases taken
    have := ih rest
    omega

theorem place_inj {maxPasses : Nat} {encoding : Encoding}
    (encoded : program.encode maxPasses = .ok encoding) {position other : Nat}
    (inside : position ≤ program.size) (inside' : other ≤ program.size)
    (same : encoding.place position = encoding.place other) : position = other := by
  obtain ⟨forms, settled, -, -, place⟩ := place_of_encode encoded
  rw [place _ inside, place _ inside'] at same
  rcases Nat.lt_trichotomy position other with less | equal | greater
  · have := offsetAt_lt less (settled.size.symm ▸ inside')
    omega
  · exact equal
  · have := offsetAt_lt greater (settled.size.symm ▸ inside)
    omega

/-- A routine that is given the surveyed depth neither underflows nor overflows. At every step its
stack has the size recorded for the instruction at the pointer. -/
theorem stack_within_depth {program : Program} {handlers : Array Handler} {depth maxPasses : Nat}
    {encoding : Encoding} (surveyed : program.maxDepth handlers = .ok depth)
    (encoded : program.encode maxPasses = .ok encoding) (point : HookPoint) (slotCount : Nat)
    (settings : MachineSettings) (key : String) (out : Option Value) (args : List Value) :
    let routine := Routine.ofEncoding point encoding handlers slotCount depth
    let job := Job.of routine settings key args
    let ran := Machine.run routine settings key out args
    (ran.1 ≠ .error .stackUnderflow ∧ ran.1 ≠ .error .stackOverflow) ∧
      ∃ survey, program.survey handlers = .ok survey ∧ survey.deepest = depth ∧
        ∀ count frame, frameAfter (Machine.step job) count (.start routine out) = some frame →
          frame.stack.size ≤ depth ∧
            (∃ position ≤ program.size, frame.ip = encoding.place position) ∧
            ∀ position < program.size, frame.ip = encoding.place position →
              survey.depths[position]? = some (some frame.stack.size) := by
  intro routine job ran
  obtain ⟨survey, surveyed, deepest⟩ := exists_survey_of_maxDepth surveyed
  obtain ⟨forms, settled, -⟩ := place_of_encode encoded
  have roomy : survey.deepest ≤ job.room := deepest ▸ Nat.le_max_right _ _
  have same : ran = _ := run_of_encode point handlers slotCount depth settings key out args encoded
  refine ⟨?_, survey, surveyed, deepest, ?_⟩
  · rw [same]
    exact stack_fault_of_run settled.toLowered surveyed out roomy settings.maxSteps
  · intro count frame reached
    rw [frameAfter_of_encode point handlers slotCount depth settings key out args
      encoded] at reached
    obtain ⟨before, arrived, rfl⟩ := Option.map_eq_some_iff.1 reached
    have inside := ip_le_of_encode out encoded arrived
    have described := describes_of_frameAfter settled.toLowered surveyed out arrived
    refine ⟨deepest ▸ described.within, ⟨before.ip, inside, rfl⟩, ?_⟩
    intro position inside' same
    obtain rfl := place_inj encoded inside (Nat.le_of_lt inside') same
    obtain ⟨sound, -⟩ := sound_of_survey surveyed
    exact described.recorded (sound.size.symm ▸ inside')

theorem stack_within_depth_countdown :
    countdown.maxDepth #[] = .ok 2 ∧ countdown.encode 1 = .ok countdown.encoding ∧
      let routine := Routine.ofEncoding .standard countdown.encoding #[] 1 2
      (Machine.run routine ⟨0, 20, false⟩ "" none []).1 ≠ .error .stackOverflow := by
  have surveyed : countdown.maxDepth #[] = .ok 2 := by decide +kernel
  have encoded : countdown.encode 1 = .ok countdown.encoding := by decide +kernel
  obtain ⟨⟨-, fits⟩, -⟩ :=
    stack_within_depth surveyed encoded .standard 1 ⟨0, 20, false⟩ "" none []
  exact ⟨surveyed, encoded, fits⟩

end Program

end TrieDispatch
