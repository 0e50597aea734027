import TrieDispatch.Proofs.Code.Lowering

/-! # Relaxation -/

namespace TrieDispatch

def Opcode.lengthen : Opcode → Opcode
  | branchNeShort => branchNe
  | opcode => opcode

/-- The form that a pass may give to an instruction. -/
inductive Opcode.Widens : Opcode → Opcode → Prop
  | refl (opcode : Opcode) : Widens opcode opcode
  | long : Widens branchNeShort branchNe

theorem Opcode.widens_lengthen (opcode : Opcode) : opcode.Widens opcode.lengthen := by
  cases opcode with
  | branchNeShort => exact .long
  | _ => exact .refl _

theorem Opcode.Widens.size_le {opcode other : Opcode} (h : opcode.Widens other) :
    opcode.size ≤ other.size := by
  cases h with
  | refl => exact Nat.le_refl _
  | long => decide

namespace Program

variable {program : Program} {forms other final : Array Opcode} {position : Nat}

/-- The forms differ only in branches that are long in the second ones. -/
def Narrower (forms other : Array Opcode) : Prop :=
  List.Forall₂ Opcode.Widens forms.toList other.toList

theorem narrower_iff : Narrower forms other ↔ forms.size = other.size ∧
    ∀ (position : Nat) (opcode opcode' : Opcode), forms[position]? = some opcode →
      other[position]? = some opcode' → opcode.Widens opcode' := by
  rw [Narrower, List.forall₂_iff_get]
  simp only [Array.length_toList, List.get_eq_getElem, Array.getElem_toList]
  refine and_congr_right fun _ => ⟨?_, ?_⟩
  · intro each position opcode opcode' present present'
    obtain ⟨inside, rfl⟩ := Array.getElem?_eq_some_iff.1 present
    obtain ⟨inside', rfl⟩ := Array.getElem?_eq_some_iff.1 present'
    exact each position inside inside'
  · intro each position inside inside'
    exact each position _ _ (Array.getElem?_eq_getElem inside) (Array.getElem?_eq_getElem inside')

theorem Narrower.getElem? (h : Narrower forms other) {opcode : Opcode}
    (present : forms[position]? = some opcode) :
    ∃ opcode', other[position]? = some opcode' ∧ opcode.Widens opcode' := by
  obtain ⟨size, each⟩ := narrower_iff.1 h
  have inside := (Array.getElem?_eq_some_iff.1 present).1
  have present' := Array.getElem?_eq_getElem (size ▸ inside : position < other.size)
  exact ⟨_, present', each _ _ _ present present'⟩

theorem narrower_lengthen (forms : Array Opcode) :
    Narrower forms (forms.map Opcode.lengthen) := by
  refine narrower_iff.2 ⟨Array.size_map.symm, ?_⟩
  intro position opcode opcode' present present'
  rw [Array.getElem?_map, present, Option.map_some, Option.some.injEq] at present'
  exact present' ▸ opcode.widens_lengthen

theorem narrower_widen (program : Program) (forms : Array Opcode) :
    Narrower forms (program.widen forms) := by
  refine narrower_iff.2 ⟨Array.size_mapIdx.symm, ?_⟩
  intro position opcode opcode' present present'
  rw [widen_getElem?, present, Option.map_some, Option.some.injEq] at present'
  subst present'
  split
  next changes =>
    rw [changes.1]
    exact .long
  next => exact .refl _

theorem count_of_widens {before after : List Opcode}
    (h : List.Forall₂ Opcode.Widens before after) :
    before = after ∨ after.count .branchNeShort < before.count .branchNeShort := by
  induction h with
  | nil => exact .inl rfl
  | @cons opcode other before after widens _ ih =>
    cases widens with
    | refl =>
      rcases ih with same | fewer
      · exact .inl (by rw [same])
      · right
        rw [List.count_cons, List.count_cons]
        omega
    | long =>
      right
      have : after.count .branchNeShort ≤ before.count .branchNeShort := by
        rcases ih with rfl | fewer
        · exact Nat.le_refl _
        · exact Nat.le_of_lt fewer
      rw [List.count_cons_of_ne (by decide), List.count_cons_self]
      omega

/-- Just `count` passes change the forms, and `final` is what they come to. -/
inductive Settles (program : Program) : (forms final : Array Opcode) → (count : Nat) → Prop
  | still {forms : Array Opcode} : program.widen forms = forms → Settles program forms forms 0
  | pass {forms final : Array Opcode} {count : Nat} : program.widen forms ≠ forms →
      Settles program (program.widen forms) final count → Settles program forms final (count + 1)

theorem exists_settles (program : Program) (forms : Array Opcode) :
    ∃ final, ∃ count ≤ forms.count .branchNeShort, Settles program forms final count := by
  -- Every pass that changes the forms lowers the number of short branches.
  induction left : forms.count .branchNeShort using Nat.strongRecOn generalizing forms with
  | ind shorts ih =>
    rcases count_of_widens (narrower_widen program forms) with same | fewer
    · exact ⟨forms, 0, Nat.zero_le _, .still (Array.toList_inj.1 same).symm⟩
    · rw [Array.count_toList, Array.count_toList, left] at fewer
      obtain ⟨final, count, few, settles⟩ := ih _ fewer (program.widen forms) rfl
      refine ⟨final, count + 1, Nat.le_trans (Nat.succ_le_succ few) fewer, .pass ?_ settles⟩
      intro still
      rw [still, left] at fewer
      exact Nat.lt_irrefl _ fewer

/-- Settling takes one pass more than change the forms, and fails when it has not as many. -/
theorem Settles.settle_eq {count : Nat} (h : Settles program forms final count)
    (budget passes : Nat) : program.settle budget passes forms =
      if count < budget then .ok (final, passes + (count + 1))
      else .error (.unsettledLayout (passes + budget)) := by
  induction h generalizing budget passes with
  | still same =>
    cases budget with
    | zero => rfl
    | succ budget => rw [settle, if_pos same, if_pos (Nat.succ_pos budget)]
  | @pass forms final count moved _ ih =>
    cases budget with
    | zero => rfl
    | succ budget =>
      rw [settle, if_neg moved, ih, Nat.add_right_comm passes 1, Nat.add_right_comm passes 1]
      exact if_congr Nat.succ_lt_succ_iff.symm rfl rfl

theorem error_of_settle {budget passes : Nat} {error : CompileError}
    (h : program.settle budget passes forms = .error error) :
    ∃ total, error = .unsettledLayout total := by
  obtain ⟨final, count, -, settles⟩ := exists_settles program forms
  rw [settles.settle_eq] at h
  split at h
  next => cases h
  next => exact ⟨_, (Except.error.inj h).symm⟩

theorem Lowered.map_isBranch (lowered : Lowered program forms) :
    forms.map Opcode.isBranch = program.map Instr.isBranch := by
  apply Array.ext_getElem?
  intro position
  rw [Array.getElem?_map, Array.getElem?_map]
  rcases Nat.lt_or_ge position program.size with inside | outside
  · obtain ⟨instr, opcode, present, chosen, formOf⟩ := lowered.exists_form inside
    rw [present, chosen, Option.map_some, Option.map_some, formOf.isBranch]
  · rw [Array.getElem?_eq_none outside, Array.getElem?_eq_none (lowered.size ▸ outside)]
    rfl

theorem count_of_lowered (lowered : Lowered program forms) :
    forms.count .branchNeShort + forms.count .branchNe = program.countP Instr.isBranch := by
  have either (opcodes : List Opcode) : opcodes.count .branchNeShort + opcodes.count .branchNe =
      opcodes.countP Opcode.isBranch := by
    induction opcodes with
    | nil => rfl
    | cons opcode opcodes ih =>
      rw [List.count_cons, List.count_cons, List.countP_cons, ← ih]
      cases opcode <;> simp [Opcode.isBranch] <;> omega
  have same := congrArg (Array.countP id) lowered.map_isBranch
  rw [Array.countP_map, Array.countP_map, Function.id_comp, Function.id_comp] at same
  rw [← same, ← Array.count_toList, ← Array.count_toList, either, Array.countP_toList]

theorem count_le_of_lowered (lowered : Lowered program forms) :
    forms.count .branchNeShort ≤ program.countP Instr.isBranch :=
  count_of_lowered lowered ▸ Nat.le_add_right _ _

theorem Narrower.offsetAt_sub_le (h : Narrower forms other) {count : Nat}
    (inside : position + count ≤ forms.size) :
    offsetAt forms (position + count) + offsetAt other position ≤
      offsetAt other (position + count) + offsetAt forms position := by
  induction count with
  | zero => exact Nat.le_of_eq (Nat.add_comm _ _)
  | succ count ih =>
    have present := Array.getElem?_eq_getElem (show position + count < forms.size from inside)
    obtain ⟨opcode, present', widens⟩ := h.getElem? present
    have := ih (by omega)
    have := offsetAt_succ present
    have := offsetAt_succ present'
    have := widens.size_le
    rw [← Nat.add_assoc]
    omega

/-- In the layout with all branches long, displacements are at least what they are now. -/
theorem displacement_le {target : Nat} {instr : Instr} (size : forms.size = program.size)
    (present : program[position]? = some instr) (goes : instr.operand = .target target)
    (inside : target < program.size) (forward : position < target) :
    0 ≤ program.displacement (layout forms) position ∧
      program.displacement (layout forms) position ≤
        program.displacement (layout (forms.map Opcode.lengthen)) position := by
  have size' : (forms.map Opcode.lengthen).size = program.size := by rw [Array.size_map, size]
  rw [displacement_eq size present goes inside, displacement_eq size' present goes inside]
  have within : target ≤ forms.size := by omega
  obtain ⟨count, rfl⟩ : ∃ count, target = position + 1 + count :=
    Nat.exists_eq_add_of_le (Nat.succ_le_of_lt forward)
  have := (narrower_lengthen forms).offsetAt_sub_le within
  have := offsetAt_mono (Nat.le_add_right (position + 1) count) within
  omega

theorem error_of_encode {maxPasses : Nat} {error : CompileError}
    (h : program.encode maxPasses = .error error) :
    (∃ (position : Nat) (instr : Instr), program[position]? = some instr ∧
        form program.size position instr = .error error) ∨
      (∃ passes, error = .unsettledLayout passes) ∨
      ∃ position, error = .invalidOperand position .branchNe := by
  rw [encode] at h
  rcases bind_eq_error_iff.1 h with failed | ⟨short, formed, h⟩
  · exact .inl (exists_form_error failed)
  rcases bind_eq_error_iff.1 h with failed | ⟨⟨final, passes⟩, settled, h⟩
  · exact .inr (.inl (error_of_settle failed))
  · dsimp only at h
    split at h
    next position far => exact .inr (.inr ⟨position, (Except.error.inj h).symm⟩)
    next => cases h

end Program

end TrieDispatch
