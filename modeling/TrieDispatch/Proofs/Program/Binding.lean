import TrieDispatch.Program.Branches

/-! # Binding placeholders -/

namespace TrieDispatch

def LandingTable.bind (landings : LandingTable) (landing? : Option Landing) (instr : Instr) :
    Instr :=
  match landing? with
  | none => instr
  | some landing => ⟨instr.op, .target (landings.position landing)⟩

namespace Program

variable {landings : LandingTable} {entries : List (Nat × Landing)} {program : Program}
  {position : Nat}

/-- The error is that of the first placeholder outside the program. -/
theorem bindAll_snd (landings : LandingTable) (entries : List (Nat × Landing))
    (program : Program) : (bindAll landings entries program).2 =
      (entries.find? fun entry => program.size ≤ entry.1).map fun entry =>
        .unboundBranch entry.1 := by
  induction entries generalizing program with
  | nil => rfl
  | cons entry entries ih =>
    rw [bindAll, List.find?_cons]
    split
    next within =>
      rw [ih, decide_eq_false (Nat.not_le_of_lt within), Array.size_set]
    next outside =>
      rw [decide_eq_true (Nat.le_of_not_lt outside)]
      rfl

theorem size_bindAll (landings : LandingTable) (entries : List (Nat × Landing))
    (program : Program) : (bindAll landings entries program).1.size = program.size := by
  induction entries generalizing program with
  | nil => rfl
  | cons entry entries ih =>
    rw [bindAll]
    split
    next within => rw [ih, Array.size_set]
    next => rfl

theorem bindAll_getElem?_of_ne (others : ∀ entry ∈ entries, entry.1 ≠ position) :
    (bindAll landings entries program).1[position]? = program[position]? := by
  induction entries generalizing program with
  | nil => rfl
  | cons entry entries ih =>
    obtain ⟨differs, others⟩ := List.forall_mem_cons.1 others
    rw [bindAll]
    split
    next within => rw [ih others, Array.getElem?_set_ne within differs]
    next => rfl

theorem bindAll_getElem?_of_mem {landing : Landing} {instr : Instr}
    (ordered : entries.Pairwise fun entry other => entry.1 < other.1)
    (member : (position, landing) ∈ entries) (present : program[position]? = some instr) :
    (bindAll landings entries program).1[position]? =
      some ⟨instr.op, .target (landings.position landing)⟩ := by
  induction entries generalizing program with
  | nil => cases member
  | cons entry entries ih =>
    obtain ⟨later, ordered⟩ := List.pairwise_cons.1 ordered
    obtain ⟨inside, value⟩ := Array.getElem?_eq_some_iff.1 present
    rcases List.mem_cons.1 member with rfl | member
    · rw [bindAll, dif_pos inside,
        bindAll_getElem?_of_ne fun other member => Nat.ne_of_gt (later other member),
        Array.getElem?_set_self inside, value]
    · have before : entry.1 < position := later _ member
      have within : entry.1 < program.size := Nat.lt_trans before inside
      rw [bindAll, dif_pos within]
      apply ih ordered member
      rw [Array.getElem?_set_ne within (Nat.ne_of_lt before), present]

theorem pairwise_toList (placeholders : Placeholders) :
    placeholders.toList.Pairwise fun entry other => entry.1 < other.1 :=
  Std.TreeMap.ordered_keys_toList.imp fun less => Nat.compare_eq_lt.1 less

theorem bindAll_getElem? (landings : LandingTable) (placeholders : Placeholders)
    (program : Program) (position : Nat) :
    (bindAll landings placeholders.toList program).1[position]? =
      program[position]?.map (landings.bind placeholders[position]?) := by
  have mem_iff (other : Nat) (landing : Landing) :
      (other, landing) ∈ placeholders.toList ↔ placeholders[other]? = some landing :=
    Std.TreeMap.mem_toList_iff_getElem?_eq_some
  cases known : placeholders[position]? with
  | none =>
    rw [bindAll_getElem?_of_ne]
    · exact Option.map_id'.symm
    · rintro ⟨other, landing⟩ member rfl
      rw [mem_iff, known] at member
      cases member
  | some landing =>
    cases present : program[position]? with
    | none =>
      rw [Array.getElem?_eq_none_iff] at present
      exact Array.getElem?_eq_none (size_bindAll landings _ program ▸ present)
    | some instr =>
      exact bindAll_getElem?_of_mem (pairwise_toList placeholders) ((mem_iff _ _).2 known) present

theorem firstBranchFault?_eq_none_iff :
    program.firstBranchFault? = none ↔ ∀ position instr, program[position]? = some instr →
      branchFault? program.size position instr = none := by
  simp only [firstBranchFault?, ← Array.findSome?_toList, List.findSome?_eq_none_iff,
    Array.mem_toList_iff, Array.mem_zipIdx_iff_getElem?, Prod.forall]
  exact forall_comm

section

variable (landings : LandingTable) (placeholders : Placeholders) (program : Program)

theorem resolve_fst : (program.resolve landings placeholders).1 =
    (bindAll landings placeholders.toList program).1 := by
  rw [resolve]
  generalize bindAll landings placeholders.toList program = outcome
  obtain ⟨bound, error⟩ := outcome
  cases error with
  | some error => rfl
  | none =>
    dsimp only
    split <;> rfl

/-- A placeholder outside the program is reported first, and then an unsound branch. -/
theorem resolve_snd : (program.resolve landings placeholders).2 =
    match placeholders.toList.find? fun entry => program.size ≤ entry.1 with
    | some entry => .error (.unboundBranch entry.1)
    | none =>
      match (program.resolve landings placeholders).1.firstBranchFault? with
      | some error => .error error
      | none => .ok placeholders.size := by
  have failed := bindAll_snd landings placeholders.toList program
  rw [resolve_fst, resolve]
  generalize bindAll landings placeholders.toList program = outcome at failed ⊢
  obtain ⟨bound, error⟩ := outcome
  obtain rfl : error = _ := failed
  cases placeholders.toList.find? fun entry => program.size ≤ entry.1 with
  | some entry => rfl
  | none =>
    dsimp only [Option.map_none]
    cases bound.firstBranchFault? <;> rfl

theorem resolve_getElem? (position : Nat) :
    (program.resolve landings placeholders).1[position]? =
      program[position]?.map (landings.bind placeholders[position]?) := by
  rw [resolve_fst, bindAll_getElem?]

end

theorem resolve_eq {placeholders : Placeholders} {bound : Program} (landings : LandingTable)
    (inside : ∀ {position landing}, placeholders[position]? = some landing →
      position < program.size)
    (same : ∀ position : Nat, bound[position]? =
      program[position]?.map (landings.bind placeholders[position]?))
    (sound : ∀ (position : Nat) (instr : Instr), bound[position]? = some instr →
      branchFault? bound.size position instr = none) :
    program.resolve landings placeholders = (bound, .ok placeholders.size) := by
  have result : (program.resolve landings placeholders).1 = bound :=
    Array.ext_getElem? fun position => by rw [resolve_getElem?, same]
  have none_outside : placeholders.toList.find? (fun entry => program.size ≤ entry.1) = none := by
    apply List.find?_eq_none.2
    rintro ⟨position, landing⟩ member
    have known := Std.TreeMap.mem_toList_iff_getElem?_eq_some.1 member
    simpa using inside known
  refine Prod.ext result ?_
  rw [resolve_snd, none_outside, result, firstBranchFault?_eq_none_iff.2 sound]

end Program

end TrieDispatch
