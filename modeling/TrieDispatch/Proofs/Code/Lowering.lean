import TrieDispatch.Proofs.Checked
import TrieDispatch.Proofs.Code.Layout

/-! # Lowered programs -/

namespace TrieDispatch

/-- The forms of an instruction in a program of `length`. -/
inductive FormOf (length : Nat) : Instr → Opcode → Prop
  | loadKey : FormOf length ⟨.loadKey, .none⟩ .loadKey
  | keyLength : FormOf length ⟨.keyLength, .none⟩ .keyLength
  | keyCharAt : FormOf length ⟨.keyCharAt, .none⟩ .keyCharAt
  | loadArgs : FormOf length ⟨.loadArgs, .none⟩ .loadArgs
  | loadElem : FormOf length ⟨.loadElem, .none⟩ .loadElem
  | add : FormOf length ⟨.add, .none⟩ .add
  | ret : FormOf length ⟨.ret, .none⟩ .ret
  | storeOut : FormOf length ⟨.storeOut, .none⟩ .storeOut
  | clearOut : FormOf length ⟨.clearOut, .none⟩ .clearOut
  | castTo (kind : ParamKind) : FormOf length ⟨.castTo, .kind kind⟩ .castTo
  | callHandler (index : UInt16) : FormOf length ⟨.callHandler, .handler index⟩ .callHandler
  | loadLocal0 : FormOf length ⟨.loadLocal, .slot 0⟩ .loadLocal0
  | loadLocal1 : FormOf length ⟨.loadLocal, .slot 1⟩ .loadLocal1
  | loadLocal {index : UInt16} : index.toNat < 256 →
      FormOf length ⟨.loadLocal, .slot index⟩ .loadLocal
  | storeLocal0 : FormOf length ⟨.storeLocal, .slot 0⟩ .storeLocal0
  | storeLocal1 : FormOf length ⟨.storeLocal, .slot 1⟩ .storeLocal1
  | storeLocal {index : UInt16} : index.toNat < 256 →
      FormOf length ⟨.storeLocal, .slot index⟩ .storeLocal
  | pushDigit (digit : Fin 9) : FormOf length ⟨.loadConst, .const digit.val⟩ (.pushDigit digit)
  | pushSmall {number : Int} : fitsSigned 8 number →
      FormOf length ⟨.loadConst, .const number⟩ .pushSmall
  | pushInt {number : Int} : fitsSigned 32 number →
      FormOf length ⟨.loadConst, .const number⟩ .pushInt
  | branchNeShort {target : Nat} : target < length →
      FormOf length ⟨.branchNe, .target target⟩ .branchNeShort
  | branchNe {target : Nat} : target < length →
      FormOf length ⟨.branchNe, .target target⟩ .branchNe

theorem FormOf.lengthen {length : Nat} {instr : Instr} (h : FormOf length instr .branchNeShort) :
    FormOf length instr .branchNe := by
  cases h with
  | branchNeShort inside => exact .branchNe inside

theorem FormOf.isBranch {length : Nat} {instr : Instr} {opcode : Opcode}
    (h : FormOf length instr opcode) : opcode.isBranch = instr.isBranch := by
  cases h <;> rfl

theorem Opcode.ofDigit?_eq_some_iff {number : Int} {opcode : Opcode} :
    ofDigit? number = some opcode ↔
      ∃ digit : Fin 9, number = digit.val ∧ opcode = pushDigit digit := by
  unfold ofDigit?
  constructor
  · intro h
    split at h
    next nonneg =>
      split at h
      next small =>
        refine ⟨⟨number.toNat, small⟩, ?_, (Option.some.inj h).symm⟩
        exact (Int.toNat_of_nonneg nonneg).symm
      next => cases h
    next => cases h
  · rintro ⟨digit, rfl, rfl⟩
    simp

namespace Program

private theorem slotForm_cases {index : UInt16} {zero one other opcode : Opcode}
    {error : CompileError}
    (h : (if index = 0 then .ok zero else if index = 1 then .ok one
      else if index < 256 then .ok other else .error error : Except CompileError Opcode) =
        .ok opcode) :
    index = 0 ∧ opcode = zero ∨ index = 1 ∧ opcode = one ∨
      index.toNat < 256 ∧ opcode = other := by
  split at h
  next first => exact .inl ⟨first, (Except.ok.inj h).symm⟩
  next =>
    split at h
    next second => exact .inr (.inl ⟨second, (Except.ok.inj h).symm⟩)
    next =>
      split at h
      next small => exact .inr (.inr ⟨UInt16.lt_iff_toNat_lt.1 small, (Except.ok.inj h).symm⟩)
      next => cases h

theorem formOf_of_form {length position : Nat} {instr : Instr} {opcode : Opcode}
    (h : form length position instr = .ok opcode) : FormOf length instr opcode := by
  obtain ⟨op, operand⟩ := instr
  cases op <;> cases operand <;> simp only [form, reduceCtorEq, Except.ok.injEq] at h
  case loadLocal.slot index =>
    rcases slotForm_cases h with ⟨rfl, rfl⟩ | ⟨rfl, rfl⟩ | ⟨small, rfl⟩
    · exact .loadLocal0
    · exact .loadLocal1
    · exact .loadLocal small
  case storeLocal.slot index =>
    rcases slotForm_cases h with ⟨rfl, rfl⟩ | ⟨rfl, rfl⟩ | ⟨small, rfl⟩
    · exact .storeLocal0
    · exact .storeLocal1
    · exact .storeLocal small
  case loadConst.const number =>
    split at h
    next compact =>
      obtain ⟨digit, rfl, rfl⟩ := Opcode.ofDigit?_eq_some_iff.1 compact
      obtain rfl := Except.ok.inj h
      exact .pushDigit digit
    next =>
      split at h
      next small =>
        obtain rfl := Except.ok.inj h
        exact .pushSmall small
      next =>
        split at h
        next fits =>
          obtain rfl := Except.ok.inj h
          exact .pushInt fits
        next => cases h
  case branchNe.target target =>
    split at h
    next inside =>
      obtain rfl := Except.ok.inj h
      exact .branchNeShort inside
    next => cases h
  all_goals
    subst h
    constructor

theorem forms_eq_ok_iff {program : Program} {forms : Array Opcode} :
    program.forms = .ok forms ↔ forms.size = program.size ∧
      ∀ position (inside : position < program.size) (inside' : position < forms.size),
        form program.size position program[position] = .ok forms[position] := by
  rw [Program.forms, Array.mapM_eq_mapM_toList, map_eq_ok_iff]
  constructor
  · rintro ⟨outputs, done, rfl⟩
    obtain ⟨length, each⟩ := List.forall₂_iff_get.1 (mapM_eq_ok_iff.1 done)
    rw [Array.length_toList, Array.size_zipIdx] at length
    refine ⟨length.symm, ?_⟩
    intro position inside inside'
    have := each position (by simpa using inside) inside'
    simpa using this
  · rintro ⟨size, each⟩
    refine ⟨forms.toList, mapM_eq_ok_iff.2 (List.forall₂_iff_get.2 ⟨?_, ?_⟩), Array.toArray_toList⟩
    · rw [Array.length_toList, Array.size_zipIdx, Array.length_toList, size]
    · intro position inside inside'
      have := each position (by simpa using inside) (by simpa using inside')
      simpa using this

theorem exists_form_error {program : Program} {error : CompileError}
    (h : program.forms = .error error) :
    ∃ (position : Nat) (instr : Instr), program[position]? = some instr ∧
      form program.size position instr = .error error := by
  rw [Program.forms, Array.mapM_eq_mapM_toList, map_eq_error_iff] at h
  obtain ⟨⟨instr, position⟩, member, failed⟩ := exists_error_of_mapM h
  rw [Array.mem_toList_iff, Array.mem_zipIdx_iff_getElem?] at member
  exact ⟨position, instr, member, failed⟩

structure Lowered (program : Program) (forms : Array Opcode) : Prop where
  size : forms.size = program.size
  formOf : ∀ {position : Nat} {instr : Instr} {opcode : Opcode}, program[position]? = some instr →
    forms[position]? = some opcode → FormOf program.size instr opcode

theorem Lowered.exists_form {program : Program} {forms : Array Opcode} (h : Lowered program forms)
    {position : Nat} (inside : position < program.size) :
    ∃ instr opcode, program[position]? = some instr ∧ forms[position]? = some opcode ∧
      FormOf program.size instr opcode := by
  have present := Array.getElem?_eq_getElem inside
  have chosen := Array.getElem?_eq_getElem (h.size ▸ inside : position < forms.size)
  exact ⟨_, _, present, chosen, h.formOf present chosen⟩

theorem lowered_of_forms {program : Program} {forms : Array Opcode}
    (h : program.forms = .ok forms) : Lowered program forms := by
  obtain ⟨size, each⟩ := forms_eq_ok_iff.1 h
  refine ⟨size, ?_⟩
  intro position instr opcode present chosen
  obtain ⟨inside, rfl⟩ := Array.getElem?_eq_some_iff.1 present
  obtain ⟨inside', rfl⟩ := Array.getElem?_eq_some_iff.1 chosen
  exact formOf_of_form (each position inside inside')

theorem widen_getElem? (program : Program) (forms : Array Opcode) (position : Nat) :
    (program.widen forms)[position]? = forms[position]?.map fun opcode =>
      if opcode = .branchNeShort ∧
        fitsSigned 8 (program.displacement (layout forms) position) = false then .branchNe
      else opcode := by
  simp [widen, Array.getElem?_mapIdx]

theorem Lowered.widen {program : Program} {forms : Array Opcode} (h : Lowered program forms) :
    Lowered program (program.widen forms) := by
  have size : (program.widen forms).size = program.size := Array.size_mapIdx.trans h.size
  refine ⟨size, ?_⟩
  intro position instr opcode present chosen
  rw [widen_getElem?, Option.map_eq_some_iff] at chosen
  obtain ⟨before, chosen, rfl⟩ := chosen
  have formOf := h.formOf present chosen
  split
  next widened =>
    rw [widened.1] at formOf
    exact formOf.lengthen
  next => exact formOf

/-- What settling ends with has been widened from what it began with, and widens no further. -/
theorem settle_invariant {program : Program} {Holds : Array Opcode → Prop}
    (keeps : ∀ forms, Holds forms → Holds (program.widen forms)) {budget passes total : Nat}
    {forms final : Array Opcode} (start : Holds forms)
    (h : program.settle budget passes forms = .ok (final, total)) :
    Holds final ∧ program.widen final = final := by
  induction budget generalizing passes forms with
  | zero => cases h
  | succ budget ih =>
    rw [settle] at h
    split at h
    next still =>
      cases h
      exact ⟨start, still⟩
    next => exact ih (keeps forms start) h

/-- Every instruction has a form, and every branch reaches its target with the one it has. -/
structure Settled (program : Program) (forms : Array Opcode) : Prop extends
    Lowered program forms where
  short : ∀ position, forms[position]? = some .branchNeShort →
    fitsSigned 8 (program.displacement (layout forms) position)
  long : ∀ position, forms[position]? = some .branchNe →
    fitsSigned 32 (program.displacement (layout forms) position)

theorem short_of_widen_eq {program : Program} {forms : Array Opcode}
    (h : program.widen forms = forms) {position : Nat}
    (chosen : forms[position]? = some .branchNeShort) :
    fitsSigned 8 (program.displacement (layout forms) position) := by
  have same := widen_getElem? program forms position
  rw [h, chosen] at same
  simpa using same

theorem tooFar?_eq_none_iff {program : Program} {forms : Array Opcode} {offsets : Array Nat} :
    program.tooFar? forms offsets = none ↔ ∀ position, forms[position]? = some .branchNe →
      fitsSigned 32 (program.displacement offsets position) := by
  simp only [tooFar?, Option.map_eq_none_iff, Array.find?_eq_none, Array.mem_zipIdx_iff_getElem?]
  constructor
  · intro h position chosen
    simpa using h (.branchNe, position) chosen
  · rintro h ⟨opcode, position⟩ chosen
    by_cases long : opcode = .branchNe
    · subst long
      simpa using h position chosen
    · simp [long]

theorem settled_of_encode {program : Program} {maxPasses : Nat} {encoding : Encoding}
    (h : program.encode maxPasses = .ok encoding) :
    ∃ forms, Settled program forms ∧ encoding.code = program.bytes forms (layout forms) ∧
      encoding.offsets = (layout forms).pop := by
  rw [encode, bind_eq_ok_iff] at h
  obtain ⟨short, formed, h⟩ := h
  obtain ⟨⟨forms, passes⟩, settled, h⟩ := bind_eq_ok_iff.1 h
  obtain ⟨lowered, still⟩ :=
    settle_invariant (fun _ lowered => lowered.widen) (lowered_of_forms formed) settled
  dsimp only at h
  split at h
  next => cases h
  next near =>
    obtain rfl := Except.ok.inj h
    exact ⟨forms, ⟨lowered, fun _ => short_of_widen_eq still, tooFar?_eq_none_iff.1 near⟩, rfl, rfl⟩

theorem immediate_of_operand {program : Program} {position : Nat} {instr : Instr}
    (h : program[position]? = some instr) (offsets : Array Nat) :
    program.immediate offsets position =
      match instr.operand with
      | .const number => number
      | .slot index => index.toNat
      | .kind kind => kind.tag.toNat
      | .handler index => index.toNat
      | .target _ => program.displacement offsets position
      | _ => 0 := by
  rw [immediate, h, Option.map_some]
  cases instr.operand <;> rfl

theorem Settled.holds {program : Program} {forms : Array Opcode} (h : Settled program forms)
    {position : Nat} {opcode : Opcode} (chosen : forms[position]? = some opcode) :
    opcode.immediate.Holds (program.immediate (layout forms) position) := by
  have inside : position < program.size := by
    rw [← h.size]
    exact (Array.getElem?_eq_some_iff.1 chosen).1
  have present := Array.getElem?_eq_getElem inside
  have formOf := h.formOf present chosen
  rw [immediate_of_operand present]
  generalize program[position] = instr at formOf
  cases formOf with
  | castTo kind => exact ⟨Int.natCast_nonneg _, by have := kind.tag.toNat_lt; dsimp only; omega⟩
  | callHandler index => exact ⟨Int.natCast_nonneg _, by have := index.toNat_lt; dsimp only; omega⟩
  | loadLocal small => exact ⟨Int.natCast_nonneg _, by dsimp only; omega⟩
  | storeLocal small => exact ⟨Int.natCast_nonneg _, by dsimp only; omega⟩
  | pushSmall fits => exact fits
  | pushInt fits => exact fits
  | branchNeShort => exact h.short position chosen
  | branchNe => exact h.long position chosen
  | _ => exact trivial

/-- The instruction at `position` is decoded where it was laid out. -/
theorem Settled.decodeAt? {program : Program} {forms : Array Opcode} (h : Settled program forms)
    {position : Nat} {opcode : Opcode} (chosen : forms[position]? = some opcode) :
    (program.bytes forms (layout forms)).decodeAt? (offsetAt forms position) =
      some ⟨offsetAt forms position, opcode,
        opcode.immediate.read (program.immediate (layout forms) position)⟩ :=
  decodeAt?_bytes chosen (h.holds chosen)

theorem displacement_eq {program : Program} {forms : Array Opcode}
    (size : forms.size = program.size) {position target : Nat} {instr : Instr}
    (present : program[position]? = some instr) (goes : instr.operand = .target target)
    (inside : target < program.size) :
    program.displacement (layout forms) position =
      (offsetAt forms target : Int) - offsetAt forms (position + 1) := by
  have before : position + 1 ≤ forms.size := by
    rw [size]
    exact (Array.getElem?_eq_some_iff.1 present).1
  rw [Program.displacement, present, Option.bind_some, Instr.target?, goes]
  simp only [Option.getD_some, layout_getElem? before,
    layout_getElem? (Nat.le_of_lt (size ▸ inside : target < forms.size))]

theorem Settled.displacement {program : Program} {forms : Array Opcode} (h : Settled program forms)
    {position target : Nat} {instr : Instr} (present : program[position]? = some instr)
    (goes : instr.operand = .target target) (inside : target < program.size) :
    (offsetAt forms (position + 1) : Int) + program.displacement (layout forms) position =
      offsetAt forms target := by
  rw [displacement_eq h.size present goes inside]
  omega

/-- No branch of a settled program skips more instructions than a signed word counts. -/
theorem Settled.target_le {program : Program} {forms : Array Opcode} (h : Settled program forms)
    {position target : Nat} (present : program[position]? = some ⟨.branchNe, .target target⟩) :
    target ≤ position + 2147483648 := by
  have within := (Array.getElem?_eq_some_iff.1 present).1
  obtain ⟨instr, opcode, present', chosen, formOf⟩ := h.exists_form within
  obtain rfl := Option.some.inj (present.symm.trans present')
  by_contra far
  have reach : program.displacement (layout forms) position ≤ 2147483647 := by
    cases formOf with
    | branchNeShort =>
      have fits := h.short position chosen
      rw [fitsSigned_iff] at fits
      omega
    | branchNe =>
      have fits := h.long position chosen
      rw [fitsSigned_iff] at fits
      omega
  have inside : target < program.size := by
    cases formOf with
    | branchNeShort inside | branchNe inside => exact inside
  rw [displacement_eq h.size present rfl inside] at reach
  obtain ⟨count, rfl⟩ := Nat.exists_eq_add_of_le (show position + 1 ≤ target by omega)
  have fits : position + 1 + count ≤ forms.size := by
    rw [h.size]
    exact Nat.le_of_lt inside
  have := offsetAt_add_le count fits
  omega

end Program

end TrieDispatch
