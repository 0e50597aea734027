import Mathlib.Data.Set.Basic
import Mathlib.Order.Bounds.Defs
import TrieDispatch.Proofs.Code.LeastLayout
import TrieDispatch.Proofs.Program.Binding

/-! # What can be encoded -/

namespace TrieDispatch

/-- The operation goes with its operand, and the number, slot or position is in range. -/
def Instr.Encodable (length : Nat) (instr : Instr) : Prop :=
  match instr.op with
  | .branchNe => ∃ target, instr.operand = .target target ∧ target < length
  | .loadConst => ∃ number, instr.operand = .const number ∧
      -2147483648 ≤ number ∧ number ≤ 2147483647
  | .loadLocal | .storeLocal => ∃ index, instr.operand = .slot index ∧ index.toNat ≤ 255
  | .castTo => ∃ kind, instr.operand = .kind kind
  | .callHandler => ∃ index, instr.operand = .handler index
  | _ => instr.operand = .none

def Instr.encodingFault (position : Nat) (instr : Instr) : CompileError :=
  match instr.op, instr.operand with
  | .branchNe, .pending => .unboundBranch position
  | .branchNe, .target target => .danglingBranch position target
  | op, _ => .invalidOperand position op

variable {length position : Nat} {instr : Instr}

/-! ## One instruction -/

theorem FormOf.encodable {opcode : Opcode} (h : FormOf length instr opcode) :
    instr.Encodable length := by
  cases h with
  | castTo kind => exact ⟨kind, rfl⟩
  | callHandler index => exact ⟨index, rfl⟩
  | loadLocal0 | loadLocal1 | storeLocal0 | storeLocal1 => exact ⟨_, rfl, by decide⟩
  | loadLocal small | storeLocal small => exact ⟨_, rfl, Nat.le_of_lt_succ small⟩
  | pushDigit digit => exact ⟨_, rfl, by omega, by omega⟩
  | pushSmall fits | pushInt fits =>
    rw [fitsSigned_iff] at fits
    exact ⟨_, rfl, by omega, by omega⟩
  | branchNeShort inside | branchNe inside => exact ⟨_, rfl, inside⟩
  | _ => exact rfl

namespace Program

private theorem exists_slotForm {index : UInt16} (small : index.toNat ≤ 255)
    (zero one other : Opcode) (error : CompileError) :
    ∃ opcode, (if index = 0 then .ok zero else if index = 1 then .ok one
      else if index < 256 then .ok other else .error error : Except CompileError Opcode) =
        .ok opcode := by
  have inside : index < 256 := UInt16.lt_iff_toNat_lt.2 (Nat.lt_succ_of_le small)
  rw [if_pos inside]
  split
  · exact ⟨zero, rfl⟩
  · split
    · exact ⟨one, rfl⟩
    · exact ⟨other, rfl⟩

theorem exists_form_of_encodable (h : instr.Encodable length) (position : Nat) :
    ∃ opcode, form length position instr = .ok opcode := by
  obtain ⟨op, operand⟩ := instr
  cases op with
  | branchNe =>
    obtain ⟨target, rfl, inside⟩ := h
    exact ⟨.branchNeShort, if_pos inside⟩
  | loadConst =>
    obtain ⟨number, rfl, low, high⟩ := h
    have fits : fitsSigned 32 number = true := by
      rw [fitsSigned_iff]
      omega
    simp only [form, fits, if_true]
    split
    · exact ⟨_, rfl⟩
    · split <;> exact ⟨_, rfl⟩
  | loadLocal | storeLocal =>
    obtain ⟨index, rfl, small⟩ := h
    exact exists_slotForm small _ _ _ _
  | castTo | callHandler =>
    obtain ⟨operand, rfl⟩ := h
    exact ⟨_, rfl⟩
  | _ =>
    obtain rfl : operand = .none := h
    exact ⟨_, rfl⟩

theorem error_of_form {error : CompileError} (h : form length position instr = .error error) :
    error = instr.encodingFault position := by
  obtain ⟨op, operand⟩ := instr
  cases op <;> cases operand <;> simp only [form, reduceCtorEq, Except.error.injEq] at h
  case loadConst.const | loadLocal.slot | storeLocal.slot | branchNe.target =>
    -- Each branch of the choice of a form is either a form or the error.
    repeat' split at h
    all_goals simp only [reduceCtorEq, Except.error.injEq] at h
    exact h.symm
  all_goals exact h.symm

theorem form_eq_error_iff {error : CompileError} : form length position instr = .error error ↔
    ¬instr.Encodable length ∧ error = instr.encodingFault position := by
  constructor
  · intro failed
    refine ⟨fun encodable => ?_, error_of_form failed⟩
    obtain ⟨opcode, formed⟩ := exists_form_of_encodable encodable position
    cases formed.symm.trans failed
  · rintro ⟨unencodable, rfl⟩
    cases formed : form length position instr with
    | ok opcode => exact absurd (formOf_of_form formed).encodable unencodable
    | error error => rw [error_of_form formed]

theorem branchFault?_of_encodable (h : instr.Encodable length) (position : Nat) :
    branchFault? length position instr = none := by
  obtain ⟨opcode, formed⟩ := exists_form_of_encodable h position
  cases formOf_of_form formed with
  | branchNeShort inside | branchNe inside => exact if_pos inside
  | _ => rfl

/-! ## A whole program -/

variable {program : Program} {forms final : Array Opcode} {offsets : Array Nat}

theorem forms_of_first {error : CompileError} (present : program[position]? = some instr)
    (failed : form program.size position instr = .error error)
    (fine : ∀ (earlier : Nat) (other : Instr), earlier < position →
      program[earlier]? = some other → other.Encodable program.size) :
    program.forms = .error error := by
  obtain ⟨before, after, split, earlier⟩ := exists_zipIdx_eq present
  rw [forms, Array.mapM_eq_mapM_toList, map_eq_error_iff, split]
  refine mapM_of_first (fun entry member => ?_) failed
  obtain ⟨less, present⟩ := earlier entry member
  exact exists_form_of_encodable (fine _ _ less present) _

theorem exists_forms_of_encodable (fine : ∀ (position : Nat) (instr : Instr),
    program[position]? = some instr → instr.Encodable program.size) :
    ∃ forms, program.forms = .ok forms := by
  cases formed : program.forms with
  | ok forms => exact ⟨forms, rfl⟩
  | error error =>
    obtain ⟨position, instr, present, failed⟩ := exists_form_error formed
    exact absurd (fine position instr present) (form_eq_error_iff.1 failed).1

theorem encodable_of_encode {maxPasses : Nat} {encoding : Encoding}
    (encoded : program.encode maxPasses = .ok encoding)
    (present : program[position]? = some instr) : instr.Encodable program.size := by
  obtain ⟨short, formed, -⟩ := bind_eq_ok_iff.1 encoded
  have lowered := lowered_of_forms formed
  obtain ⟨instr', opcode, present', -, formOf⟩ :=
    lowered.exists_form (Array.getElem?_eq_some_iff.1 present).1
  obtain rfl := Option.some.inj (present.symm.trans present')
  exact formOf.encodable

def unencodable (program : Program) : Set Nat :=
  {position | ∃ instr, program[position]? = some instr ∧ ¬instr.Encodable program.size}

/-- The long branches whose displacement is no signed word in the layout. -/
def farBranches (program : Program) (forms : Array Opcode) : Set Nat :=
  {position | forms[position]? = some .branchNe ∧
    ¬(-2147483648 ≤ program.displacement (layout forms) position ∧
      program.displacement (layout forms) position ≤ 2147483647)}

theorem mem_farBranches_iff : position ∈ program.farBranches forms ↔
    forms[position]? = some .branchNe ∧
      fitsSigned 32 (program.displacement (layout forms) position) = false := by
  rw [← Bool.not_eq_true, fitsSigned_iff]
  refine and_congr_right fun _ => not_congr ?_
  omega

theorem tooFar?_of_isLeast (first : IsLeast (program.farBranches forms) position) :
    program.tooFar? forms (layout forms) = some position := by
  obtain ⟨chosen, far⟩ := mem_farBranches_iff.1 first.1
  obtain ⟨before, after, split, earlier⟩ := exists_zipIdx_eq chosen
  rw [tooFar?, ← Array.find?_toList, split, List.find?_append, List.find?_eq_none.2, Option.none_or,
    List.find?_cons_of_pos (by simp [far]), Option.map_some]
  intro entry member found
  obtain ⟨less, chosen⟩ := earlier entry member
  obtain ⟨long, far⟩ := Bool.and_eq_true_iff.1 found
  rw [of_decide_eq_true long] at chosen
  have member := mem_farBranches_iff.2 ⟨chosen, by simpa using far⟩
  exact absurd (first.2 member) (Nat.not_le_of_lt less)

theorem tooFar?_of_eq_empty (near : program.farBranches forms = ∅) :
    program.tooFar? forms (layout forms) = none := by
  apply tooFar?_eq_none_iff.2
  intro position chosen
  by_contra far
  have member := mem_farBranches_iff.2 ⟨chosen, Bool.not_eq_true _ ▸ far⟩
  rw [near] at member
  exact member

/-- Encoding accepts just what is encodable. The first instruction that is not encodable decides the
error. Where there is none the layout settles after some number of passes, and encoding fails only
for a smaller limit, or for the first long branch that goes too far. What is encoded has no unsound
branch. -/
theorem encode_outcome (program : Program) :
    (∀ position instr, IsLeast program.unencodable position → program[position]? = some instr →
      ∀ maxPasses, program.encode maxPasses = .error (instr.encodingFault position)) ∧
    (program.unencodable = ∅ → ∃ short final count,
      program.forms = .ok short ∧ Settles program short final count ∧ ∀ maxPasses,
        (max 1 maxPasses ≤ count →
          program.encode maxPasses = .error (.unsettledLayout (max 1 maxPasses))) ∧
        (count < max 1 maxPasses →
          (∀ position, IsLeast (program.farBranches final) position →
            program.encode maxPasses = .error (.invalidOperand position .branchNe)) ∧
          (program.farBranches final = ∅ →
            ∃ encoding, program.encode maxPasses = .ok encoding))) ∧
    ∀ maxPasses encoding, program.encode maxPasses = .ok encoding →
      program.unencodable = ∅ ∧ program.firstBranchFault? = none := by
  refine ⟨fun position instr first present maxPasses => ?_, fun fine => ?_,
    fun maxPasses encoding encoded => ⟨?_, ?_⟩⟩
  · obtain ⟨instr', present', unencodable⟩ := first.1
    obtain rfl := Option.some.inj (present.symm.trans present')
    have failed : program.forms = .error (instr.encodingFault position) := by
      refine forms_of_first present (form_eq_error_iff.2 ⟨unencodable, rfl⟩) ?_
      intro earlier other before present
      by_contra unencodable
      exact absurd (first.2 ⟨other, present, unencodable⟩) (Nat.not_le_of_lt before)
    rw [encode, failed]
    rfl
  · obtain ⟨short, formed⟩ := exists_forms_of_encodable fun position instr present => by
      by_contra unencodable
      have member : position ∈ program.unencodable := ⟨instr, present, unencodable⟩
      rw [fine] at member
      exact member
    obtain ⟨final, count, -, settles⟩ := exists_settles program short
    refine ⟨short, final, count, formed, settles, fun maxPasses => ⟨fun few => ?_, fun enough =>
      ⟨fun position first => ?_, fun near => ?_⟩⟩⟩
    · rw [settles.encode_eq formed, if_neg (Nat.not_lt_of_le few)]
    · rw [settles.encode_eq formed, if_pos enough, tooFar?_of_isLeast first]
    · rw [settles.encode_eq formed, if_pos enough, tooFar?_of_eq_empty near]
      exact ⟨_, rfl⟩
  · refine Set.eq_empty_iff_forall_notMem.2 ?_
    rintro position ⟨instr, present, unencodable⟩
    exact unencodable (encodable_of_encode encoded present)
  · exact firstBranchFault?_eq_none_iff.2 fun position instr present =>
      branchFault?_of_encodable (encodable_of_encode encoded present) position

example : Program.forms #[⟨.loadConst, .const 2147483648⟩, ⟨.branchNe, .pending⟩] =
    .error (.invalidOperand 0 .loadConst) := by
  decide +kernel

end Program

end TrieDispatch
