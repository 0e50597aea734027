import Mathlib.Data.Set.Defs
import Mathlib.Order.Nat
import TrieDispatch.Proofs.Code.Convergence

/-!
# The least layout

Making more branches long brings no target nearer, so a branch that does not reach its target in one
choice is long in every valid choice beyond it.
-/

namespace TrieDispatch.Program

open Opcode (Widens)

/-- The forms with just the branches that `long` tells made long. -/
def choose (short : Array Opcode) (long : Nat → Bool) : Array Opcode :=
  short.mapIdx fun position opcode =>
    if opcode = .branchNeShort && long position then .branchNe else opcode

def longBranches (forms : Array Opcode) : Set Nat :=
  {position | forms[position]? = some .branchNe}

/-- Every short branch reaches its target in the layout of the forms. -/
def Valid (program : Program) (forms : Array Opcode) : Prop :=
  ∀ position, forms[position]? = some .branchNeShort →
    fitsSigned 8 (program.displacement (layout forms) position)

variable {program : Program} {short forms other final : Array Opcode} {position : Nat}

/-! ## Choices in order -/

theorem Narrower.refl (forms : Array Opcode) : Narrower forms forms :=
  List.forall₂_same.2 fun opcode _ => .refl opcode

theorem Narrower.trans (h : Narrower short forms) (h' : Narrower forms other) :
    Narrower short other := by
  refine narrower_iff.2 ⟨(narrower_iff.1 h).1.trans (narrower_iff.1 h').1, ?_⟩
  intro position opcode opcode'' present present''
  obtain ⟨opcode', present', widens⟩ := h.getElem? present
  have widens' := (narrower_iff.1 h').2 _ _ _ present' present''
  cases widens with
  | refl => exact widens'
  | long =>
    cases widens' with
    | refl => exact .long

theorem Narrower.longBranches_subset (h : Narrower forms other) :
    longBranches forms ⊆ longBranches other := by
  intro position long
  obtain ⟨opcode, present, widens⟩ := h.getElem? long
  cases widens with
  | refl => exact present

theorem narrower_choose (short : Array Opcode) (long : Nat → Bool) :
    Narrower short (choose short long) := by
  refine narrower_iff.2 ⟨Array.size_mapIdx.symm, ?_⟩
  intro position opcode opcode' present chosen
  rw [choose, Array.getElem?_mapIdx, present, Option.map_some, Option.some.injEq] at chosen
  subst chosen
  split
  next changes =>
    rw [Bool.and_eq_true, decide_eq_true_iff] at changes
    rw [changes.1]
    exact .long
  next => exact .refl _

theorem exists_choose_of_narrower (h : Narrower short forms) :
    ∃ long, forms = choose short long := by
  refine ⟨fun position => forms[position]? == some .branchNe, Array.ext_getElem? fun position => ?_⟩
  rw [choose, Array.getElem?_mapIdx]
  cases present : short[position]? with
  | none =>
    rw [Array.getElem?_eq_none_iff, (narrower_iff.1 h).1] at present
    exact Array.getElem?_eq_none_iff.2 present
  | some opcode =>
    obtain ⟨opcode', chosen, widens⟩ := h.getElem? present
    rw [chosen, Option.map_some]
    cases widens with
    | refl => cases opcode <;> rfl
    | long => rfl

/-! ## Reach -/

theorem Narrower.size_bytes_le (h : Narrower forms other) (program : Program) :
    (program.bytes forms (layout forms)).size ≤ (program.bytes other (layout other)).size := by
  have size := (narrower_iff.1 h).1
  have total := h.offsetAt_sub_le (show 0 + forms.size ≤ forms.size by omega)
  rw [size_bytes, size_bytes, ← size]
  simpa [offsetAt] using total

/-- A target that is reached where more branches are long is reached where fewer are, forward and
backward alike. -/
theorem Narrower.fitsSigned_displacement (h : Narrower forms other)
    (lowered : Lowered program forms) (chosen : forms[position]? = some .branchNeShort)
    (fits : fitsSigned 8 (program.displacement (layout other) position)) :
    fitsSigned 8 (program.displacement (layout forms) position) := by
  have size := lowered.size
  have size' : other.size = program.size := (narrower_iff.1 h).1.symm.trans size
  have within := (Array.getElem?_eq_some_iff.1 chosen).1
  obtain ⟨instr, opcode, present, chosen', formOf⟩ := lowered.exists_form (size ▸ within)
  obtain rfl := Option.some.inj (chosen.symm.trans chosen')
  cases formOf with
  | @branchNeShort target inside =>
    rw [displacement_eq size' present rfl inside] at fits
    rw [displacement_eq size present rfl inside]
    rw [fitsSigned_iff] at fits ⊢
    rcases Nat.lt_or_ge position target with forward | backward
    · obtain ⟨count, rfl⟩ := Nat.exists_eq_add_of_le (show position + 1 ≤ target from forward)
      have := h.offsetAt_sub_le (show position + 1 + count ≤ forms.size by omega)
      have := offsetAt_mono (Nat.le_add_right (position + 1) count)
        (show position + 1 + count ≤ forms.size by omega)
      omega
    · -- The branch itself lies on the way back to its target.
      obtain ⟨count, same⟩ := Nat.exists_eq_add_of_le (show target ≤ position + 1 by omega)
      rw [same] at fits ⊢
      have := h.offsetAt_sub_le (show target + count ≤ forms.size by omega)
      have := offsetAt_mono (Nat.le_add_right target count)
        (show target + count ≤ forms.size by omega)
      omega

/-- A pass only makes branches long that are long in every valid choice beyond the present one. -/
theorem Narrower.widen (h : Narrower forms other) (lowered : Lowered program forms)
    (valid : program.Valid other) : Narrower (program.widen forms) other := by
  have size : (program.widen forms).size = forms.size := Array.size_mapIdx
  refine narrower_iff.2 ⟨size.trans (narrower_iff.1 h).1, ?_⟩
  intro position opcode opcode' chosen present
  rw [widen_getElem?, Option.map_eq_some_iff] at chosen
  obtain ⟨before, chosen, rfl⟩ := chosen
  have widens := (narrower_iff.1 h).2 _ _ _ chosen present
  split
  next overlong =>
    obtain ⟨rfl, far⟩ := overlong
    cases widens with
    | refl =>
      rw [h.fitsSigned_displacement lowered chosen (valid position present)] at far
      cases far
    | long => exact .refl _
  next => exact widens

theorem valid_of_widen_eq (still : program.widen forms = forms) : program.Valid forms :=
  fun _ chosen => short_of_widen_eq still chosen

/-- What settling ends with is valid, and every valid choice has its long branches. -/
theorem Settles.least {count : Nat} (h : Settles program forms final count)
    (lowered : Lowered program forms) :
    Narrower forms final ∧ program.Valid final ∧
      ∀ other, Narrower forms other → program.Valid other → Narrower final other := by
  induction h with
  | still same => exact ⟨.refl _, valid_of_widen_eq same, fun other beyond _ => beyond⟩
  | @pass forms final count _ _ ih =>
    obtain ⟨beyond, valid, least⟩ := ih lowered.widen
    refine ⟨(narrower_widen program forms).trans beyond, valid, ?_⟩
    -- A pass stays below every valid choice, so what is least afterwards is least from here.
    intro other beyond' valid'
    exact least other (beyond'.widen lowered valid') valid'

theorem Settles.lowered {count : Nat} (h : Settles program forms final count)
    (lowered : Lowered program forms) : Lowered program final := by
  induction h with
  | still => exact lowered
  | pass _ _ ih => exact ih lowered.widen

theorem Settles.encode_eq {count : Nat} (h : Settles program short final count)
    (formed : program.forms = .ok short) (maxPasses : Nat) : program.encode maxPasses =
      if count < max 1 maxPasses then
        match program.tooFar? final (layout final) with
        | some position => .error (.invalidOperand position .branchNe)
        | none => .ok ⟨program.bytes final (layout final), (layout final).pop,
            stats final (count + 1)⟩
      else .error (.unsettledLayout (max 1 maxPasses)) := by
  rw [encode, formed, bind_ok, h.settle_eq, Nat.zero_add, Nat.zero_add]
  split <;> rfl

theorem Settles.encode_eq_unsettledLayout_iff {count : Nat}
    (h : Settles program short final count) (formed : program.forms = .ok short)
    (maxPasses passes : Nat) : program.encode maxPasses = .error (.unsettledLayout passes) ↔
      max 1 maxPasses < count + 1 ∧ passes = max 1 maxPasses := by
  rw [h.encode_eq formed]
  split
  next enough =>
    refine iff_of_false ?_ fun ⟨few, _⟩ => Nat.not_le_of_lt enough (Nat.le_of_lt_succ few)
    split <;> exact fun failed => by cases failed
  next few =>
    rw [Except.error.injEq, CompileError.unsettledLayout.injEq]
    constructor
    · rintro rfl
      exact ⟨Nat.lt_succ_of_le (Nat.le_of_not_lt few), rfl⟩
    · rintro ⟨-, rfl⟩
      rfl

theorem Settles.encoding_eq {count maxPasses : Nat} {encoding : Encoding}
    (h : Settles program short final count) (formed : program.forms = .ok short)
    (encoded : program.encode maxPasses = .ok encoding) :
    encoding = ⟨program.bytes final (layout final), (layout final).pop,
      stats final (count + 1)⟩ := by
  rw [h.encode_eq formed] at encoded
  split at encoded
  next =>
    split at encoded
    next => cases encoded
    next => exact (Except.ok.inj encoded).symm
  next => cases encoded

/-- Relaxation finds the smallest layout. It ends with a valid choice, whose long branches are long
in every valid choice. The passes it needs are those that change the forms and one more, at most one
more than there are branches; with fewer it fails, and with as many or more the outcome is always
the same. -/
theorem relaxation_least (formed : program.forms = .ok short) :
    ∃ long needed, let final := choose short long
      program.Valid final ∧
      (∀ other, program.Valid (choose short other) →
        longBranches final ⊆ longBranches (choose short other) ∧
        (program.bytes final (layout final)).size ≤
          (program.bytes (choose short other) (layout (choose short other))).size) ∧
      needed ≤ program.countP Instr.isBranch + 1 ∧
      (∀ count, program.widen (program.widen^[count] short) = program.widen^[count] short ↔
        needed ≤ count + 1) ∧
      (∀ maxPasses, program.settle (max 1 maxPasses) 0 short =
        if needed ≤ max 1 maxPasses then .ok (final, needed)
        else .error (.unsettledLayout (max 1 maxPasses))) ∧
      (∀ maxPasses passes, program.encode maxPasses = .error (.unsettledLayout passes) ↔
        max 1 maxPasses < needed ∧ passes = max 1 maxPasses) ∧
      (∀ maxPasses encoding, program.encode maxPasses = .ok encoding →
        encoding.code = program.bytes final (layout final) ∧ encoding.stats.passes = needed ∧
        encoding.stats.shortBranches + encoding.stats.longBranches =
          program.countP Instr.isBranch) ∧
      ∀ maxPasses maxPasses' encoding encoding', program.encode maxPasses = .ok encoding →
        program.encode maxPasses' = .ok encoding' → encoding = encoding' := by
  have lowered := lowered_of_forms formed
  obtain ⟨final, count, few, settles⟩ := exists_settles program short
  obtain ⟨beyond, valid, least⟩ := settles.least lowered
  obtain ⟨long, rfl⟩ := exists_choose_of_narrower beyond
  have least' (other : Nat → Bool) (valid' : program.Valid (choose short other)) :
      Narrower (choose short long) (choose short other) :=
    least _ (narrower_choose short other) valid'
  refine ⟨long, count + 1, valid, ?_, ?_, ?_, ?_, settles.encode_eq_unsettledLayout_iff formed,
    ?_, ?_⟩
  · intro other valid'
    have narrower := least' other valid'
    exact ⟨narrower.longBranches_subset, narrower.size_bytes_le program⟩
  · exact Nat.succ_le_succ (Nat.le_trans few (count_le_of_lowered lowered))
  · intro later
    rw [settles.still_iff, Nat.succ_le_succ_iff]
  · intro maxPasses
    rw [settles.settle_eq, Nat.zero_add, Nat.zero_add]
    rfl
  · intro maxPasses encoding encoded
    obtain rfl := settles.encoding_eq formed encoded
    exact ⟨rfl, rfl, count_of_lowered (settles.lowered lowered)⟩
  · intro maxPasses maxPasses' encoding encoding' encoded encoded'
    rw [settles.encoding_eq formed encoded, settles.encoding_eq formed encoded']

/-- The second branch is out of reach at first, and making it long pushes the first one out of
reach. -/
private def cascade : Program :=
  #[⟨.branchNe, .target 27⟩, ⟨.branchNe, .target 28⟩] ++
    Array.replicate 26 ⟨.loadConst, .const 1000⟩ ++ #[⟨.ret, .none⟩]

private def shortCascade : Array Opcode :=
  #[.branchNeShort, .branchNeShort] ++ Array.replicate 26 .pushInt ++ #[.ret]

theorem relaxation_least_cascade :
    cascade.forms = .ok shortCascade ∧ cascade.countP Instr.isBranch = 2 ∧
      cascade.encode 2 = .error (.unsettledLayout 2) ∧
      ∃ long, cascade.settle 3 0 shortCascade = .ok (choose shortCascade long, 3) ∧
        cascade.Valid (choose shortCascade long) := by
  have formed : cascade.forms = .ok shortCascade := by decide +kernel
  have branches : cascade.countP Instr.isBranch = 2 := by decide +kernel
  have moving :
      cascade.widen (cascade.widen^[1] shortCascade) ≠ cascade.widen^[1] shortCascade := by
    decide +kernel
  obtain ⟨long, needed, valid, -, atMost, stillIff, settles, fails, -⟩ := relaxation_least formed
  obtain rfl : needed = 3 := by
    have := (stillIff 1).not.1 moving
    omega
  exact ⟨formed, branches, (fails 2 2).2 ⟨by decide, rfl⟩, long, settles 3, valid⟩

end TrieDispatch.Program
