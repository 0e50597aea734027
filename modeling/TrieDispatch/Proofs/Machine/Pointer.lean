import TrieDispatch.Proofs.Code.Decoding
import TrieDispatch.Proofs.Machine.Decoded
import TrieDispatch.Proofs.Machine.Limits
import TrieDispatch.Proofs.Machine.Visits

/-! # Where the pointer goes -/

namespace TrieDispatch.Machine

variable {job : Job} {frame next : Frame} {decoded : Decoded} {answer : Option Bool}

def TopsDiffer (stack : Array Cell) : Prop :=
  ∃ (below : Array Cell) (left right : Int),
    stack = (below.push (.int left)).push (.int right) ∧ left ≠ right

theorem exists_immediate_of_isBranch {code : ByteCode} {offset : Nat}
    (h : code.decodeAt? offset = some decoded) (branch : decoded.opcode.isBranch) :
    ∃ displacement, decoded.immediate = some displacement := by
  obtain ⟨opcode, -, h⟩ := Option.bind_eq_some_iff.1 h
  cases opcode with
  | branchNeShort | branchNe =>
    obtain ⟨displacement, -, rfl⟩ := Option.map_eq_some_iff.1 h
    exact ⟨displacement, rfl⟩
  | loadLocal | storeLocal | castTo | pushSmall | pushInt | callHandler =>
    obtain ⟨_, -, rfl⟩ := Option.map_eq_some_iff.1 h
    cases branch
  | _ =>
    obtain rfl := Option.some.inj h
    cases branch

section

variable {below : Array Cell} {left right : Int}

theorem branchNe_of_tops (job : Job) (displacement : Int) (frame : Frame)
    (tops : frame.stack = (below.push (.int left)).push (.int right)) :
    branchNe job displacement frame =
      if left = right then .ok () { frame with stack := below }
      else if 0 ≤ (frame.ip : Int) + displacement ∧
          (frame.ip : Int) + displacement < job.routine.code.size then
        .ok () { frame with ip := ((frame.ip : Int) + displacement).toNat, stack := below }
      else .error .outOfCode { frame with stack := below } := by
  have first : popInt frame = .ok right { frame with stack := below.push (.int left) } :=
    popInt_eq_ok_iff.2 ⟨_, tops, rfl⟩
  simp only [branchNe, bind_apply, first, popInt_push]
  by_cases equal : left = right
  · simp only [equal, ne_eq, not_true, if_true, if_false, pure_apply]
  · simp only [equal, ne_eq, not_false_eq_true, if_true, if_false, bind_apply, get_apply]
    split
    · rfl
    · rfl

theorem exists_tops_of_branchNe {displacement : Int} {done : Unit}
    (taken : branchNe job displacement frame = .ok done next) :
    ∃ (below : Array Cell) (left right : Int),
      frame.stack = (below.push (.int left)).push (.int right) := by
  obtain ⟨right, middle, first, rest⟩ := bind_eq_ok taken
  obtain ⟨left, popped, second, -⟩ := bind_eq_ok rest
  obtain ⟨upper, above, rfl⟩ := popInt_eq_ok_iff.1 first
  obtain ⟨below, split, -⟩ := popInt_eq_ok_iff.1 second
  exact ⟨below, left, right, above.trans (congrArg (·.push (.int right)) split)⟩

theorem step_of_tops (h : job.routine.code.decodeAt? frame.ip = some decoded)
    (branch : decoded.opcode.isBranch)
    (tops : frame.stack = (below.push (.int left)).push (.int right)) (differ : left ≠ right) :
    step job frame =
      match decoded.branchTarget?.filter (· < job.routine.code.size) with
      | some target => .ok none { frame with
          steps := frame.steps + 1
          ip := target
          stack := below }
      | none => .error .outOfCode { frame with
          steps := frame.steps + 1
          ip := decoded.nextOffset
          stack := below } := by
  obtain ⟨displacement, immediate⟩ := exists_immediate_of_isBranch h branch
  have branched := branchNe_of_tops job displacement
    { frame with steps := frame.steps + 1, ip := decoded.nextOffset } tops
  rw [step_of_decodeAt? h, execute_of_isBranch branch, Decoded.branchTarget?_eq branch immediate,
    immediate, Option.getD_some, bind_apply, branched, if_neg differ]
  by_cases before : 0 ≤ (decoded.nextOffset : Int) + displacement
  · have same : (decoded.nextOffset : Int) + displacement < job.routine.code.size ↔
        ((decoded.nextOffset : Int) + displacement).toNat < job.routine.code.size := by omega
    simp only [before, true_and, same, if_true, Option.filter_some, decide_eq_true_eq]
    by_cases inside : ((decoded.nextOffset : Int) + displacement).toNat < job.routine.code.size
    · simp only [inside, if_true, pure_apply]
    · simp only [inside, if_false]
  · simp only [before, false_and, if_false, Option.filter_none]

end

theorem ip_of_branch (h : job.routine.code.decodeAt? frame.ip = some decoded)
    (branch : decoded.opcode.isBranch) (same : ¬TopsDiffer frame.stack)
    (taken : step job frame = .ok answer next) : next.ip = decoded.nextOffset := by
  rw [step_of_decodeAt? h, execute_of_isBranch branch] at taken
  obtain ⟨_, last, branched, answered⟩ := bind_eq_ok taken
  cases answered
  obtain ⟨below, left, right, tops⟩ := exists_tops_of_branchNe branched
  rcases Decidable.em (left = right) with equal | differ
  · rw [branchNe_of_tops _ _ _ tops, if_pos equal] at branched
    cases branched
    rfl
  · exact absurd ⟨below, left, right, tops, differ⟩ same

theorem ip_of_straight (h : job.routine.code.decodeAt? frame.ip = some decoded)
    (straight : decoded.opcode.isBranch = false) :
    (left (step job frame)).ip = decoded.nextOffset := by
  rw [step_of_decodeAt? h]
  exact (uniform_execute straight _).ip_left job _

theorem keeps_branchNe (job : Job) (displacement : Int) :
    Keeps (fun frame next => next.ip = frame.ip ∨ next.ip < job.routine.code.size)
      (branchNe job displacement) := by
  intro frame
  have first := uniform_popInt.ip_left job frame
  rw [branchNe, bind_apply]
  cases taken : popInt frame with
  | error fault last =>
    rw [taken] at first
    exact .inl first
  | ok right middle =>
    have second := uniform_popInt.ip_left job middle
    rw [taken] at first
    dsimp only
    rw [bind_apply]
    cases taken' : popInt middle with
    | error fault last =>
      rw [taken'] at second
      exact .inl (second.trans first)
    | ok left popped =>
      rw [taken'] at second
      have stays := second.trans first
      dsimp only
      split
      · rw [bind_apply, get_apply]
        dsimp only
        split
        next inside =>
          right
          simp only [moveTo_apply, Machine.left]
          omega
        next => exact .inl stays
      · exact .inl stays

/-- No step moves the pointer out of the code, not even one that fails. -/
theorem ip_left_le (inside : frame.ip ≤ job.routine.code.size) :
    (left (step job frame)).ip ≤ job.routine.code.size := by
  cases found : job.routine.code.decodeAt? frame.ip with
  | none =>
    rw [step_of_undecoded found]
    dsimp only [left]
    split
    next known =>
      obtain ⟨opcode, known⟩ := Option.isSome_iff_exists.1 known
      obtain ⟨byte, present, -⟩ := Option.bind_eq_some_iff.1 known
      exact ByteCode.succ_le_of_byte? present
    next => exact inside
  | some decoded =>
    have within := ByteCode.nextOffset_le_of_decodeAt? found
    cases branch : decoded.opcode.isBranch with
    | false =>
      rw [ip_of_straight found branch]
      exact within
    | true =>
      rw [step_of_decodeAt? found, execute_of_isBranch branch]
      rcases (keeps_branchNe job _).answer (fun _ => (none : Option Bool)) _ with stays | moved
      · rw [stays]
        exact within
      · exact Nat.le_of_lt moved

/-- The machine and the decoder agree at every point of a run on any code. Where nothing can be
decoded, the run ends with a fault that leaves stack, slots and output alone. Elsewhere a step that
goes on leaves the pointer at the next instruction, but a branch with different integers on top goes
to its target, or fails where that lies outside the code. -/
theorem pointer_follows_decoder (routine : Routine) (settings : MachineSettings) (key : String)
    (out : Option Value) (args : List Value) :
    let job := Job.of routine settings key args
    let first := Frame.start routine out
    let ran := run routine settings key out args
    (∀ frame, Visits (step job) settings.maxSteps first frame → frame.ip ≤ routine.code.size) ∧
      ∀ count < settings.maxSteps, ∀ frame, frameAfter (step job) count first = some frame →
        (routine.code.decodeAt? frame.ip = none → ∃ last,
          step job frame = .error (undecodedFault routine.code frame.ip) last ∧
            ran = (.error (undecodedFault routine.code frame.ip), last) ∧
            last.stack = frame.stack ∧ last.locals = frame.locals ∧ last.out = frame.out) ∧
        ∀ decoded, routine.code.decodeAt? frame.ip = some decoded →
          (¬(decoded.opcode.isBranch ∧ TopsDiffer frame.stack) →
            ∀ next, step job frame = .ok none next → next.ip = decoded.nextOffset) ∧
          (decoded.opcode.isBranch ∧ TopsDiffer frame.stack →
            match decoded.branchTarget?.filter (· < routine.code.size) with
            | some target => ∃ next, step job frame = .ok none next ∧ next.ip = target
            | none => ∃ last, step job frame = .error .outOfCode last ∧
                ran = (.error .outOfCode, last)) := by
  intro job first ran
  have start : first.ip ≤ job.routine.code.size := Nat.zero_le _
  have keeps (frame : Frame) (inside : frame.ip ≤ job.routine.code.size) :
      (left (step job frame)).ip ≤ job.routine.code.size := ip_left_le inside
  refine ⟨fun frame visited => visited.invariant keeps start, fun count within frame reached => ?_⟩
  constructor
  · intro undecoded
    have undecoded : job.routine.code.decodeAt? frame.ip = none := undecoded
    have failed := step_of_undecoded undecoded
    exact ⟨_, failed, loop_of_frameAfter_error reached failed within _, rfl, rfl, rfl⟩
  · intro decoded found
    have found : job.routine.code.decodeAt? frame.ip = some decoded := found
    refine ⟨fun straight next taken => ?_, ?_⟩
    · cases branch : decoded.opcode.isBranch with
      | false => rw [← ip_of_straight found branch, left_of_ok taken]
      | true => exact ip_of_branch found branch (fun differ => straight ⟨branch, differ⟩) taken
    · rintro ⟨branch, below, left, right, tops, differ⟩
      have taken := step_of_tops found branch tops differ
      split
      next target known =>
        have known : decoded.branchTarget?.filter (· < job.routine.code.size) = some target := known
        rw [known] at taken
        exact ⟨_, taken, rfl⟩
      next outside =>
        have outside : decoded.branchTarget?.filter (· < job.routine.code.size) = none := outside
        rw [outside] at taken
        exact ⟨_, taken, loop_of_frameAfter_error reached taken within _⟩

/-- A branch into the last byte of an instruction, which is no opcode. -/
private def astray : Routine where
  point := .standard
  code := #[0x20, 0x21, 0x40, 0x01, 0x29, 0xff]
  offsets := #[]
  handlers := #[]
  slotCount := 0
  maxDepth := 0
  stats := default

theorem pointer_follows_decoder_astray :
    astray.code.decodeAt? 5 = none ∧ undecodedFault astray.code 5 = .invalidOpcode 0xff ∧
      (run astray default "" none []).1 = .error (.invalidOpcode 0xff) := by
  obtain ⟨-, agrees⟩ := pointer_follows_decoder astray default "" none []
  have moved : (frameAfter (step (.of astray default "" [])) 3 (.start astray none)).map Frame.ip =
      some 5 := by
    decide +kernel
  obtain ⟨frame, reached, ip⟩ := Option.map_eq_some_iff.1 moved
  have unread : astray.code.decodeAt? 5 = none := by decide +kernel
  have fault : undecodedFault astray.code 5 = .invalidOpcode 0xff := by decide +kernel
  obtain ⟨undecoded, -⟩ := agrees 3 (by decide) frame reached
  obtain ⟨last, -, ended, -⟩ := undecoded (ip ▸ unread)
  exact ⟨unread, fault, by rw [ended, ip, fault]⟩

end TrieDispatch.Machine
