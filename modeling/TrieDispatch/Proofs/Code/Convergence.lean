import Mathlib.Logic.Function.Iterate
import TrieDispatch.Proofs.Code.Relaxation

/-!
# Convergence of relaxation

When branches nest, apart from those that go to one common last target, only a branch to the last
target can push another one out of reach, and none pushes it: two passes are enough.
-/

namespace TrieDispatch.Program

variable {program : Program} {forms final : Array Opcode} {position target last : Nat}

def Overlong (program : Program) (forms : Array Opcode) (position : Nat) : Prop :=
  forms[position]? = some .branchNeShort ∧
    fitsSigned 8 (program.displacement (layout forms) position) = false

/-- Branches go forward and at most to `last`. One that lies in the span of another goes no further
than it, unless to `last`. -/
structure Nested (program : Program) (last : Nat) : Prop where
  forward : ∀ {position target : Nat}, program[position]? = some ⟨.branchNe, .target target⟩ →
    position < target
  within : ∀ {position target : Nat}, program[position]? = some ⟨.branchNe, .target target⟩ →
    target ≤ last
  inner : ∀ {position target position' target' : Nat},
    program[position]? = some ⟨.branchNe, .target target⟩ →
    program[position']? = some ⟨.branchNe, .target target'⟩ → position < position' →
    position' < target → target' ≤ target ∨ target' = last

theorem widen_getElem?_of_not_overlong (h : ¬program.Overlong forms position) :
    (program.widen forms)[position]? = forms[position]? := by
  rw [widen_getElem?]
  cases chosen : forms[position]? with
  | none => rfl
  | some opcode =>
    rw [Option.map_some, if_neg]
    rintro ⟨rfl, far⟩
    exact h ⟨chosen, far⟩

theorem widen_eq_of_forall_not_overlong (h : ∀ position, ¬program.Overlong forms position) :
    program.widen forms = forms :=
  Array.ext_getElem? fun position => widen_getElem?_of_not_overlong (h position)

theorem offsetAt_sub_eq {other : Array Opcode} {count : Nat}
    (same : ∀ between, position ≤ between → between < position + count →
      other[between]? = forms[between]?) (inside : position + count ≤ forms.size) :
    offsetAt other (position + count) + offsetAt forms position =
      offsetAt forms (position + count) + offsetAt other position := by
  induction count with
  | zero => exact Nat.add_comm _ _
  | succ count ih =>
    have present := Array.getElem?_eq_getElem (show position + count < forms.size from inside)
    have present' := (same (position + count) (by omega) (by omega)).trans present
    have := ih (fun between after before => same between after (by omega)) (by omega)
    have := offsetAt_succ present
    have := offsetAt_succ present'
    rw [← Nat.add_assoc]
    omega

theorem form_ne_unsettledLayout {length passes : Nat} {instr : Instr} :
    form length position instr ≠ .error (.unsettledLayout passes) := by
  intro h
  obtain ⟨op, operand⟩ := instr
  cases op <;> cases operand <;> simp only [form, reduceCtorEq, Except.error.injEq] at h
  -- What is left has a choice of forms.
  all_goals
    repeat' split at h
    all_goals cases h

section

variable (lowered : Lowered program forms)

include lowered

theorem displacement_inner_le {inner target' : Nat}
    (present : program[position]? = some ⟨.branchNe, .target target⟩)
    (inside : target < program.size)
    (present' : program[inner]? = some ⟨.branchNe, .target target'⟩) (after : position < inner)
    (before : inner < target) (within : target' ≤ target) :
    program.displacement (layout forms) inner ≤ program.displacement (layout forms) position := by
  rw [displacement_eq lowered.size present rfl inside,
    displacement_eq lowered.size present' rfl (Nat.lt_of_le_of_lt within inside)]
  have fits : target ≤ forms.size := by
    rw [lowered.size]
    exact Nat.le_of_lt inside
  have := offsetAt_mono within fits
  have := offsetAt_mono (show position + 1 ≤ inner + 1 by omega) (by omega : inner + 1 ≤ forms.size)
  omega

variable (nested : program.Nested last)

include nested

theorem Overlong.exists_branch (h : program.Overlong forms position) :
    ∃ target, program[position]? = some ⟨.branchNe, .target target⟩ ∧ target < program.size ∧
      127 < program.displacement (layout forms) position := by
  obtain ⟨chosen, far⟩ := h
  have within := (Array.getElem?_eq_some_iff.1 chosen).1
  obtain ⟨instr, opcode, present, chosen', formOf⟩ := lowered.exists_form (lowered.size ▸ within)
  obtain rfl := Option.some.inj (chosen.symm.trans chosen')
  cases formOf with
  | @branchNeShort target inside =>
    have bounds := displacement_le lowered.size present rfl inside (nested.forward present)
    refine ⟨target, present, inside, ?_⟩
    by_contra near
    have fits : fitsSigned 8 (program.displacement (layout forms) position) = true := by
      rw [fitsSigned_iff]
      omega
    rw [fits] at far
    cases far

omit lowered nested in
/-- A branch that a pass pushes out of reach is short before the pass, and its target in reach. -/
theorem Overlong.displacement_le (h : program.Overlong (program.widen forms) position) :
    program.displacement (layout forms) position ≤ 127 := by
  have chosen := h.1
  rw [widen_getElem?, Option.map_eq_some_iff] at chosen
  obtain ⟨opcode, -, kept⟩ := chosen
  split at kept
  next => cases kept
  next stays =>
    subst kept
    by_contra distant
    refine stays ⟨rfl, ?_⟩
    rw [← Bool.not_eq_true, fitsSigned_iff]
    omega

omit nested in
/-- A branch goes further after a pass only if the pass widens a branch in its span. -/
theorem exists_overlong_between (present : program[position]? = some ⟨.branchNe, .target target⟩)
    (inside : target < program.size) (forward : position < target)
    (near : program.displacement (layout forms) position ≤ 127)
    (far : 127 < program.displacement (layout (program.widen forms)) position) :
    ∃ inner, position < inner ∧ inner < target ∧ program.Overlong forms inner := by
  by_contra none
  obtain ⟨count, rfl⟩ := Nat.exists_eq_add_of_le (show position + 1 ≤ target from forward)
  have keeps (between : Nat) (after : position + 1 ≤ between)
      (before : between < position + 1 + count) :
      (program.widen forms)[between]? = forms[between]? :=
    widen_getElem?_of_not_overlong fun overlong => none ⟨between, after, before, overlong⟩
  have same := offsetAt_sub_eq keeps (by rw [lowered.size]; exact Nat.le_of_lt inside)
  rw [displacement_eq lowered.widen.size present rfl inside] at far
  rw [displacement_eq lowered.size present rfl inside] at near
  omega

/-- What a pass pushes out of reach goes less far than some branch that the pass made long. -/
theorem exists_overlong_of_widen (h : program.Overlong (program.widen forms) position)
    (present : program[position]? = some ⟨.branchNe, .target target⟩) :
    target < last ∧ ∃ inner, program.Overlong forms inner ∧
      program[inner]? = some ⟨.branchNe, .target last⟩ := by
  have near := h.displacement_le
  obtain ⟨target', present', inside, far⟩ := h.exists_branch lowered.widen nested
  obtain rfl : target = target' := by
    cases present.symm.trans present'
    rfl
  obtain ⟨inner, after, before, overlong⟩ :=
    exists_overlong_between lowered present inside (nested.forward present) near far
  obtain ⟨target', present', -, far'⟩ := overlong.exists_branch lowered nested
  have beyond : target < target' := by
    by_contra within
    have := displacement_inner_le lowered present inside present' after before
      (Nat.le_of_not_lt within)
    omega
  rcases nested.inner present present' after before with within | rfl
  · omega
  · exact ⟨beyond, inner, overlong, present'⟩

/-- After two passes nothing is left to widen. -/
theorem widen_widen_widen :
    program.widen (program.widen (program.widen forms)) = program.widen (program.widen forms) := by
  apply widen_eq_of_forall_not_overlong
  intro position overlong
  obtain ⟨target, present, -⟩ := overlong.exists_branch lowered.widen.widen nested
  -- Only a branch to the last target pushes another one out of reach, and none pushes it.
  obtain ⟨-, inner, overlong', present'⟩ :=
    exists_overlong_of_widen lowered.widen nested overlong present
  obtain ⟨less, -⟩ := exists_overlong_of_widen lowered nested overlong' present'
  exact Nat.lt_irrefl _ less

end

theorem Settles.still_iff {count : Nat} (h : Settles program forms final count) (later : Nat) :
    program.widen (program.widen^[later] forms) = program.widen^[later] forms ↔ count ≤ later := by
  induction h generalizing later with
  | still same =>
    rw [Function.iterate_fixed same]
    exact iff_of_true same (Nat.zero_le later)
  | @pass forms final count moved _ ih =>
    cases later with
    | zero => exact iff_of_false moved (Nat.not_succ_le_zero count)
    | succ later => rw [Function.iterate_succ_apply, ih, Nat.succ_le_succ_iff]

theorem settle_of_iterate {count : Nat}
    (still : program.widen (program.widen^[count] forms) = program.widen^[count] forms)
    (budget passes : Nat) :
    (count < budget → ∃ final total, program.settle budget passes forms = .ok (final, total)) ∧
      ∀ final total, program.settle budget passes forms = .ok (final, total) →
        total ≤ passes + (count + 1) := by
  obtain ⟨settled, first, -, settles⟩ := exists_settles program forms
  have early := (settles.still_iff count).1 still
  rw [settles.settle_eq]
  constructor
  · intro enough
    rw [if_pos (Nat.lt_of_le_of_lt early enough)]
    exact ⟨_, _, rfl⟩
  · intro final total done
    split at done
    next =>
      obtain ⟨-, rfl⟩ := Prod.mk.inj (Except.ok.inj done)
      omega
    next => cases done

theorem Nested.settle_within_three (nested : program.Nested last) (lowered : Lowered program forms)
    (budget : Nat) :
    (2 < budget → ∃ final total, program.settle budget 0 forms = .ok (final, total)) ∧
      ∀ final total, program.settle budget 0 forms = .ok (final, total) → total ≤ 3 := by
  have still : program.widen (program.widen^[2] forms) = program.widen^[2] forms :=
    widen_widen_widen lowered nested
  exact settle_of_iterate still budget 0

/-- A nested program is encoded in at most three passes, the one that finds nothing to widen
included. -/
theorem Nested.passes_of_encode (nested : program.Nested last) (maxPasses : Nat) :
    (3 ≤ maxPasses → ∀ passes, program.encode maxPasses ≠ .error (.unsettledLayout passes)) ∧
      ∀ encoding, program.encode maxPasses = .ok encoding → encoding.stats.passes ≤ 3 := by
  constructor
  · intro enough passes failed
    rw [encode] at failed
    rcases bind_eq_error_iff.1 failed with unformed | ⟨short, formed, failed⟩
    · obtain ⟨position, instr, -, refused⟩ := exists_form_error unformed
      exact form_ne_unsettledLayout refused
    obtain ⟨settles, -⟩ := nested.settle_within_three (lowered_of_forms formed) (max 1 maxPasses)
    obtain ⟨final, total, settled⟩ := settles (by omega)
    rw [settled, bind_ok] at failed
    dsimp only at failed
    split at failed <;> cases failed
  · intro encoding encoded
    obtain ⟨short, formed, h⟩ := bind_eq_ok_iff.1 encoded
    obtain ⟨⟨final, total⟩, settled, h⟩ := bind_eq_ok_iff.1 h
    have bound := (nested.settle_within_three (lowered_of_forms formed) _).2 final total settled
    dsimp only at h
    split at h
    next => cases h
    next =>
      obtain rfl := Except.ok.inj h
      exact bound

end TrieDispatch.Program
