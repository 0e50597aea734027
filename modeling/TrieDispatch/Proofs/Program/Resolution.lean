import TrieDispatch.Proofs.Code.Encodability
import TrieDispatch.Proofs.Program.Binding

/-! # What resolving comes to -/

namespace TrieDispatch

variable {length position : Nat} {instr : Instr}

def Instr.Unsound (length : Nat) (instr : Instr) : Prop :=
  instr.operand = .pending ∨ ∃ target, instr.operand = .target target ∧ length ≤ target

theorem LandingTable.bind_bind (landings : LandingTable) (landing? : Option Landing)
    (instr : Instr) :
    landings.bind landing? (landings.bind landing? instr) = landings.bind landing? instr := by
  cases landing? <;> rfl

namespace Program

variable {program : Program} {landings : LandingTable} {placeholders : Placeholders}

/-! ## Unsound operands -/

theorem branchFault?_eq_none_iff :
    branchFault? length position instr = none ↔ ¬instr.Unsound length := by
  obtain ⟨op, operand⟩ := instr
  cases operand <;> simp [branchFault?, Instr.Unsound]

theorem branchFault?_of_pending (pending : instr.operand = .pending) :
    branchFault? length position instr = some (.unboundBranch position) := by
  simp only [branchFault?, pending]

theorem branchFault?_of_target {target : Nat} (goes : instr.operand = .target target)
    (unsound : instr.Unsound length) :
    branchFault? length position instr = some (.danglingBranch position target) := by
  rcases unsound with pending | ⟨target', goes', outside⟩
  · cases goes.symm.trans pending
  · obtain rfl := Operand.target.inj (goes.symm.trans goes')
    simp only [branchFault?, goes, if_neg (Nat.not_lt_of_le outside)]

/-- A sound instruction that has no encoding is no branch that lacks its target. -/
theorem encodingFault_of_sound (sound : ¬instr.Unsound length)
    (unencodable : ¬instr.Encodable length) (position : Nat) :
    instr.encodingFault position = .invalidOperand position instr.op := by
  obtain ⟨op, operand⟩ := instr
  cases op with
  | branchNe =>
    cases operand with
    | pending => exact absurd (.inl rfl) sound
    | target target =>
      rcases Nat.lt_or_ge target length with inside | outside
      · exact absurd ⟨target, rfl, inside⟩ unencodable
      · exact absurd (.inr ⟨target, rfl, outside⟩) sound
    | _ => rfl
  | _ => cases operand <;> rfl

def unsound (program : Program) : Set Nat :=
  {position | ∃ instr, program[position]? = some instr ∧ instr.Unsound program.size}

theorem firstBranchFault?_of_isLeast {error : CompileError}
    (first : IsLeast program.unsound position) (present : program[position]? = some instr)
    (fault : branchFault? program.size position instr = some error) :
    program.firstBranchFault? = some error := by
  obtain ⟨before, after, split, earlier⟩ := exists_zipIdx_eq present
  have fine : before.findSome? (fun entry => branchFault? program.size entry.2 entry.1) = none := by
    apply List.findSome?_eq_none_iff.2
    intro entry member
    obtain ⟨less, present⟩ := earlier entry member
    apply branchFault?_eq_none_iff.2
    intro unsound
    exact absurd (first.2 ⟨_, present, unsound⟩) (Nat.not_le_of_lt less)
  rw [firstBranchFault?, ← Array.findSome?_toList, split, List.findSome?_append, fine,
    Option.none_or]
  simp only [List.findSome?_cons, fault]

theorem firstBranchFault?_eq_none_iff_sound :
    program.firstBranchFault? = none ↔ program.unsound = ∅ := by
  rw [firstBranchFault?_eq_none_iff, Set.eq_empty_iff_forall_notMem]
  constructor
  · rintro sound position ⟨instr, present, unsound⟩
    exact branchFault?_eq_none_iff.1 (sound position instr present) unsound
  · intro sound position instr present
    exact branchFault?_eq_none_iff.2 fun unsound => sound position ⟨instr, present, unsound⟩

theorem error_of_encode_sound {maxPasses : Nat} {error : CompileError}
    (sound : program.unsound = ∅) (failed : program.encode maxPasses = .error error) :
    (∃ passes, error = .unsettledLayout passes) ∨
      ∃ position op, error = .invalidOperand position op := by
  rcases error_of_encode failed with ⟨position, instr, present, failed⟩ | unsettled | far
  · obtain ⟨unencodable, rfl⟩ := form_eq_error_iff.1 failed
    have sound : ¬instr.Unsound program.size := fun unsound =>
      Set.eq_empty_iff_forall_notMem.1 sound position ⟨instr, present, unsound⟩
    exact .inr ⟨_, _, encodingFault_of_sound sound unencodable position⟩
  · exact .inl unsettled
  · obtain ⟨position, rfl⟩ := far
    exact .inr ⟨position, _, rfl⟩

/-! ## The outcome -/

theorem find?_toList_of_isLeast {key : Nat}
    (first : IsLeast {key | key ∈ placeholders ∧ length ≤ key} key) :
    ∃ landing, placeholders.toList.find? (fun entry => length ≤ entry.1) =
      some (key, landing) := by
  obtain ⟨⟨placed, outside⟩, least⟩ := first
  rw [Std.TreeMap.mem_iff_isSome_getElem?] at placed
  obtain ⟨landing, known⟩ := Option.isSome_iff_exists.1 placed
  have member := Std.TreeMap.mem_toList_iff_getElem?_eq_some.2 known
  cases found : placeholders.toList.find? (fun entry => length ≤ entry.1) with
  | none => exact absurd (decide_eq_true outside) (List.find?_eq_none.1 found _ member)
  | some entry =>
    obtain ⟨other, landing'⟩ := entry
    obtain ⟨outside', before, after, split, inside⟩ := List.find?_eq_some_iff_append.1 found
    have known' := Std.TreeMap.mem_toList_iff_getElem?_eq_some.1 (List.mem_of_find?_eq_some found)
    have placed' : other ∈ placeholders :=
      Std.TreeMap.mem_iff_isSome_getElem?.2 (Option.isSome_of_eq_some known')
    have low : key ≤ other := least ⟨placed', of_decide_eq_true outside'⟩
    have ordered := pairwise_toList placeholders
    rw [split] at member ordered
    rcases List.mem_append.1 member with member | member
    · have := inside _ member
      rw [decide_eq_true outside] at this
      cases this
    rcases List.mem_cons.1 member with same | member
    · exact ⟨landing, congrArg some same.symm⟩
    · have high := (List.pairwise_cons.1 (List.pairwise_append.1 ordered).2.1).1 _ member
      exact absurd low (Nat.not_le_of_lt high)

theorem find?_toList_of_inside (inside : ∀ key ∈ placeholders, key < length) :
    placeholders.toList.find? (fun entry => length ≤ entry.1) = none := by
  apply List.find?_eq_none.2
  rintro ⟨key, landing⟩ member
  have known := Std.TreeMap.mem_toList_iff_getElem?_eq_some.1 member
  have placed := Std.TreeMap.mem_iff_isSome_getElem?.2 (Option.isSome_of_eq_some known)
  simpa using inside key placed

section

variable (landings : LandingTable) (placeholders : Placeholders) (program : Program)

theorem size_resolve : (program.resolve landings placeholders).1.size = program.size := by
  rw [resolve_fst, size_bindAll]

theorem resolve_snd_of_inside (inside : ∀ key ∈ placeholders, key < program.size) :
    (program.resolve landings placeholders).2 =
      match (program.resolve landings placeholders).1.firstBranchFault? with
      | some error => .error error
      | none => .ok placeholders.size := by
  have result := resolve_snd landings placeholders program
  rw [find?_toList_of_inside inside] at result
  exact result

theorem unsound_of_resolve_ok {count : Nat}
    (done : (program.resolve landings placeholders).2 = .ok count) :
    (program.resolve landings placeholders).1.unsound = ∅ := by
  rw [resolve_snd] at done
  split at done
  · cases done
  · split at done
    · cases done
    · next sound => exact firstBranchFault?_eq_none_iff_sound.1 sound

theorem resolve_resolve :
    (program.resolve landings placeholders).1.resolve landings placeholders =
      program.resolve landings placeholders := by
  have same : ((program.resolve landings placeholders).1.resolve landings placeholders).1 =
      (program.resolve landings placeholders).1 := by
    apply Array.ext_getElem?
    intro position
    rw [resolve_getElem?, resolve_getElem?, Option.map_map]
    exact congrArg (Option.map · _) (funext (landings.bind_bind _))
  refine Prod.ext same ?_
  rw [resolve_snd, same, size_resolve, ← resolve_snd]

/-- However resolving ends, each placeholder inside the program is bound and nothing else changes.
The first placeholder outside is reported; when all are inside, the first operand that is unsound
after binding. Resolving once more has the same outcome. -/
theorem resolve_outcome :
    let bound := (program.resolve landings placeholders).1
    let outcome := (program.resolve landings placeholders).2
    bound.size = program.size ∧
    (∀ (position : Nat) instr, program[position]? = some instr →
      (∀ landing, placeholders[position]? = some landing →
        bound[position]? = some ⟨instr.op, .target (landings.position landing)⟩) ∧
      (position ∉ placeholders → bound[position]? = some instr)) ∧
    (∀ key, IsLeast {key | key ∈ placeholders ∧ program.size ≤ key} key →
      outcome = .error (.unboundBranch key)) ∧
    ((∀ key ∈ placeholders, key < program.size) →
      (∀ position instr, IsLeast bound.unsound position → bound[position]? = some instr →
        (instr.operand = .pending → outcome = .error (.unboundBranch position)) ∧
        ∀ target, instr.operand = .target target →
          outcome = .error (.danglingBranch position target)) ∧
      (bound.unsound = ∅ → outcome = .ok placeholders.size)) ∧
    (∀ count, outcome = .ok count → ∀ maxPasses position,
      bound.encode maxPasses ≠ .error (.unboundBranch position) ∧
        ∀ target, bound.encode maxPasses ≠ .error (.danglingBranch position target)) ∧
    bound.resolve landings placeholders = (bound, outcome) := by
  intro bound outcome
  refine ⟨size_resolve landings placeholders program, fun position instr present => ?_, ?_, ?_, ?_,
    resolve_resolve landings placeholders program⟩
  · have bound_eq : bound[position]? = some (landings.bind placeholders[position]? instr) := by
      rw [resolve_getElem?, present, Option.map_some]
    constructor
    · intro landing known
      rw [bound_eq, known]
      rfl
    · intro free
      rw [Std.TreeMap.mem_iff_isSome_getElem?, Option.not_isSome_iff_eq_none] at free
      rw [bound_eq, free]
      rfl
  · intro key first
    obtain ⟨landing, found⟩ := find?_toList_of_isLeast first
    exact (resolve_snd landings placeholders program).trans (by rw [found])
  · intro inside
    have outcome_eq := resolve_snd_of_inside landings placeholders program inside
    constructor
    · intro position instr first present
      have fails {error : CompileError}
          (fault : branchFault? bound.size position instr = some error) :
          outcome = .error error :=
        outcome_eq.trans (by rw [firstBranchFault?_of_isLeast first present fault])
      obtain ⟨instr', present', unsound⟩ := first.1
      obtain rfl := Option.some.inj (present.symm.trans present')
      exact ⟨fun pending => fails (branchFault?_of_pending pending),
        fun target goes => fails (branchFault?_of_target goes unsound)⟩
    · intro sound
      exact outcome_eq.trans (by rw [firstBranchFault?_eq_none_iff_sound.2 sound])
  · intro count done maxPasses position
    have sound := unsound_of_resolve_ok landings placeholders program done
    have refused {error : CompileError} (failed : bound.encode maxPasses = .error error) :=
      error_of_encode_sound sound failed
    constructor
    · intro failed
      rcases refused failed with ⟨_, same⟩ | ⟨_, _, same⟩ <;> cases same
    · intro target failed
      rcases refused failed with ⟨_, same⟩ | ⟨_, _, same⟩ <;> cases same

end

/-- What is bound before a placeholder outside the program stays bound. -/
example : resolve ⟨#[1], 1⟩ (.ofList [(0, Landing.subtree 0), (5, Landing.epilogue)])
    #[⟨.branchNe, .pending⟩, .plain .ret] =
      (#[⟨.branchNe, .target 1⟩, .plain .ret], .error (.unboundBranch 5)) := by
  decide +kernel

end Program

end TrieDispatch
