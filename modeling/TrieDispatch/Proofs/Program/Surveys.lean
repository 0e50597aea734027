import TrieDispatch.Program.Depth
import TrieDispatch.Proofs.Checked

/-! # Depth surveys -/

namespace TrieDispatch

def StackEffect.after (effect : StackEffect) (depth : Nat) : Nat :=
  depth - effect.pops + effect.pushes

/-- Every instruction but a `ret` leads to the next one, and a branch leads to its target too. -/
inductive Instr.LeadsTo (position : Nat) : Instr → (next : Nat) → Prop
  | next {instr : Instr} : instr.op ≠ .ret → LeadsTo position instr (position + 1)
  | target (target : Nat) : LeadsTo position ⟨.branchNe, .target target⟩ target

theorem Instr.mem_successors_iff {position next : Nat} {instr : Instr} :
    next ∈ instr.successors position ↔ instr.LeadsTo position next := by
  obtain ⟨op, operand⟩ := instr
  constructor
  · intro member
    cases op with
    | ret => cases member
    | branchNe =>
      rcases List.mem_cons.1 member with rfl | member
      · exact .next nofun
      · cases operand with
        | target target =>
          obtain rfl := List.mem_singleton.1 member
          exact .target next
        | _ => cases member
    | _ =>
      obtain rfl := List.mem_singleton.1 member
      exact .next nofun
  · rintro (goesOn | target)
    · cases op with
      | ret => exact absurd rfl goesOn
      | _ => exact List.mem_cons_self
    · exact List.mem_cons_of_mem _ List.mem_cons_self

/-- Some path from the first instruction arrives at `position` with `depth`. -/
inductive PathTo (program : Program) (handlers : Array Handler) : (position depth : Nat) → Prop
  | start : 0 < program.size → PathTo program handlers 0 0
  | step {position depth next : Nat} {instr : Instr} : PathTo program handlers position depth →
      program[position]? = some instr → (instr.stackEffect handlers).pops ≤ depth →
      instr.LeadsTo position next → next < program.size →
      PathTo program handlers next ((instr.stackEffect handlers).after depth)

/-- A path that pops more than its stack holds, or two that disagree on the depth. -/
inductive PathFault (program : Program) (handlers : Array Handler) : CompileError → Prop
  | underflow {position depth : Nat} {instr : Instr} : PathTo program handlers position depth →
      program[position]? = some instr → depth < (instr.stackEffect handlers).pops →
      PathFault program handlers (.stackUnderflow position)
  | inconsistent {position depth other : Nat} : PathTo program handlers position depth →
      PathTo program handlers position other → depth ≠ other →
      PathFault program handlers (.inconsistentDepth position)

namespace DepthSurvey

variable {program : Program} {handlers : Array Handler} {survey reached final : DepthSurvey}

def Reached (survey : DepthSurvey) (position depth : Nat) : Prop :=
  survey.depths[position]? = some (some depth)

theorem Reached.lt_size {position depth : Nat} (h : survey.Reached position depth) :
    position < survey.depths.size := (Array.getElem?_eq_some_iff.1 h).1

theorem Reached.depth_eq {position depth other : Nat} (h : survey.Reached position depth)
    (h' : survey.Reached position other) : depth = other :=
  Option.some.inj (Option.some.inj (h.symm.trans h'))

/-- The positions have been reached with `depth`, and what is new among them waits. -/
structure Reaches (depth : Nat) (positions : List Nat) (survey reached : DepthSurvey) : Prop where
  size : reached.depths.size = survey.depths.size
  deepest : reached.deepest = survey.deepest
  keeps : ∀ {position seen}, survey.Reached position seen → reached.Reached position seen
  waits : ∀ {position}, position ∈ survey.waiting → position ∈ reached.waiting
  arrives : ∀ {position}, position ∈ positions → position < survey.depths.size →
    reached.Reached position depth
  cases : ∀ {position seen}, reached.Reached position seen → survey.Reached position seen ∨
    position ∈ positions ∧ seen = depth ∧ position ∈ reached.waiting
  waiting : ∀ {position}, position ∈ reached.waiting → position ∈ survey.waiting ∨
    reached.Reached position depth

theorem reaches_self {depth : Nat} {positions : List Nat}
    (h : ∀ position ∈ positions, position < survey.depths.size → survey.Reached position depth) :
    Reaches depth positions survey survey where
  size := rfl
  deepest := rfl
  keeps := id
  waits := id
  arrives := h _
  cases := .inl
  waiting := .inl

theorem Reaches.cons {depth position : Nat} {positions : List Nat}
    (first : Reaches depth [position] survey reached)
    (rest : Reaches depth positions reached final) :
    Reaches depth (position :: positions) survey final where
  size := rest.size.trans first.size
  deepest := rest.deepest.trans first.deepest
  keeps h := rest.keeps (first.keeps h)
  waits h := rest.waits (first.waits h)
  arrives member inside := by
    rcases List.mem_cons.1 member with rfl | member
    · exact rest.keeps (first.arrives List.mem_cons_self inside)
    · exact rest.arrives member (first.size ▸ inside)
  cases h := by
    rcases rest.cases h with earlier | ⟨member, same, waits⟩
    · rcases first.cases earlier with old | ⟨member, same, waits⟩
      · exact .inl old
      · obtain rfl := List.mem_singleton.1 member
        exact .inr ⟨List.mem_cons_self, same, rest.waits waits⟩
    · exact .inr ⟨List.mem_cons_of_mem _ member, same, waits⟩
  waiting h := by
    rcases rest.waiting h with earlier | arrived
    · rcases first.waiting earlier with old | arrived
      · exact .inl old
      · exact .inr (rest.keeps arrived)
    · exact .inr arrived

private theorem reached_set {depth position other seen : Nat}
    (inside : position < survey.depths.size) (waiting : List Nat) (deepest : Nat) :
    Reached ⟨survey.depths.set position (some depth), waiting, deepest⟩ other seen ↔
      if position = other then seen = depth else survey.Reached other seen := by
  rw [Reached, Array.getElem?_set]
  split
  · simp [eq_comm]
  · rfl

private theorem reaches_set {depth position : Nat} (inside : position < survey.depths.size)
    (unseen : survey.depths[position] = none) :
    Reaches depth [position] survey ⟨survey.depths.set position (some depth),
      position :: survey.waiting, survey.deepest⟩ where
  size := Array.size_set inside
  deepest := rfl
  keeps {other seen} known := by
    rw [reached_set inside]
    split
    next same =>
      subst same
      have := known.symm.trans (Array.getElem?_eq_getElem inside)
      rw [unseen] at this
      cases this
    next => exact known
  waits := List.mem_cons_of_mem _
  arrives member _ := by rw [reached_set inside, List.mem_singleton.1 member, if_pos rfl]
  cases {other seen} known := by
    rw [reached_set inside] at known
    split at known
    next same => exact .inr ⟨same ▸ List.mem_cons_self, known, same ▸ List.mem_cons_self⟩
    next => exact .inl known
  waiting {other} member := by
    rcases List.mem_cons.1 member with rfl | member
    · exact .inr ((reached_set inside _ _).2 (by rw [if_pos rfl]))
    · exact .inl member

theorem reaches_of_reach {depth position : Nat} (h : survey.reach depth position = .ok reached) :
    Reaches depth [position] survey reached := by
  unfold reach at h
  split at h
  next inside =>
    split at h
    next unseen =>
      obtain rfl := Except.ok.inj h
      exact reaches_set inside unseen
    next seen known =>
      split at h
      next same =>
        obtain rfl := Except.ok.inj h
        apply reaches_self
        intro other member _
        rw [List.mem_singleton.1 member, Reached, Array.getElem?_eq_getElem inside, known, same]
      next => cases h
  next outside =>
    obtain rfl := Except.ok.inj h
    apply reaches_self
    intro other member inside
    exact absurd (List.mem_singleton.1 member ▸ inside) outside

theorem exists_reached_of_reach {depth position : Nat} {error : CompileError}
    (h : survey.reach depth position = .error error) :
    ∃ seen, survey.Reached position seen ∧ seen ≠ depth ∧ error = .inconsistentDepth position := by
  unfold reach at h
  split at h
  next inside =>
    split at h
    next => cases h
    next seen known =>
      split at h
      next => cases h
      next differs =>
        refine ⟨seen, ?_, differs, (Except.error.inj h).symm⟩
        rw [Reached, Array.getElem?_eq_getElem inside, known]
  next => cases h

theorem reaches_of_foldlM {depth : Nat} {positions : List Nat}
    (h : positions.foldlM (fun survey next => survey.reach depth next) survey = .ok reached) :
    Reaches depth positions survey reached := by
  induction positions generalizing survey with
  | nil =>
    obtain rfl := Except.ok.inj h
    exact reaches_self fun position member => absurd member List.not_mem_nil
  | cons position positions ih =>
    obtain ⟨next, first, rest⟩ := bind_eq_ok_iff.1 (List.foldlM_cons.symm.trans h)
    exact (reaches_of_reach first).cons (ih rest)

theorem exists_reached_of_foldlM {depth : Nat} {positions : List Nat} {error : CompileError}
    (h : positions.foldlM (fun survey next => survey.reach depth next) survey = .error error) :
    ∃ position ∈ positions, ∃ seen, survey.Reached position seen ∧ seen ≠ depth ∧
      error = .inconsistentDepth position := by
  induction positions generalizing survey with
  | nil => cases h
  | cons position positions ih =>
    rcases bind_eq_error_iff.1 (List.foldlM_cons.symm.trans h) with first | ⟨next, first, rest⟩
    · exact ⟨position, List.mem_cons_self, exists_reached_of_reach first⟩
    · obtain ⟨other, member, seen, known, differs, rfl⟩ := ih rest
      refine ⟨other, List.mem_cons_of_mem _ member, seen, ?_, differs, rfl⟩
      rcases (reaches_of_reach first).cases known with old | ⟨-, same, -⟩
      · exact old
      · exact absurd same differs

/-- An instruction reached with `depth` has been followed: its successors carry the depth after. -/
structure Followed (handlers : Array Handler) (survey : DepthSurvey) (position depth : Nat)
    (instr : Instr) : Prop where
  enough : (instr.stackEffect handlers).pops ≤ depth
  before_le : depth ≤ survey.deepest
  after_le : (instr.stackEffect handlers).after depth ≤ survey.deepest
  leads : ∀ {next}, instr.LeadsTo position next → next < survey.depths.size →
    survey.Reached next ((instr.stackEffect handlers).after depth)

def deepen (survey : DepthSurvey) (depth : Nat) : DepthSurvey :=
  { survey with deepest := max survey.deepest depth }

theorem follow_ok {position depth : Nat} {instr : Instr} (present : program[position]? = some instr)
    (known : survey.Reached position depth)
    (h : survey.follow program handlers position = .ok reached) :
    (instr.stackEffect handlers).pops ≤ depth ∧
      Reaches ((instr.stackEffect handlers).after depth) (instr.successors position)
        (survey.deepen (max depth ((instr.stackEffect handlers).after depth))) reached := by
  have recorded : survey.depths[position]?.join = some depth := by rw [known]; rfl
  simp only [follow, present, recorded] at h
  split at h
  next => cases h
  next enough => exact ⟨Nat.le_of_not_lt enough, reaches_of_foldlM h⟩

theorem follow_error {position depth : Nat} {instr : Instr} {error : CompileError}
    (present : program[position]? = some instr) (known : survey.Reached position depth)
    (h : survey.follow program handlers position = .error error) :
    (depth < (instr.stackEffect handlers).pops ∧ error = .stackUnderflow position) ∨
      (instr.stackEffect handlers).pops ≤ depth ∧ ∃ next ∈ instr.successors position,
        ∃ seen, survey.Reached next seen ∧ seen ≠ (instr.stackEffect handlers).after depth ∧
          error = .inconsistentDepth next := by
  have recorded : survey.depths[position]?.join = some depth := by rw [known]; rfl
  simp only [follow, present, recorded] at h
  split at h
  next short => exact .inl ⟨short, (Except.error.inj h).symm⟩
  next enough =>
    obtain ⟨next, member, seen, known, differs⟩ := exists_reached_of_foldlM h
    exact .inr ⟨Nat.le_of_not_lt enough, next, member, seen, known, differs⟩

/-- What holds of a survey at any time: every depth comes from a path, and every instruction reached
has been followed unless it waits. -/
structure Sound (program : Program) (handlers : Array Handler) (survey : DepthSurvey) : Prop where
  size : survey.depths.size = program.size
  first : 0 < program.size → survey.Reached 0 0
  pathTo : ∀ {position depth}, survey.Reached position depth →
    PathTo program handlers position depth
  waiting : ∀ {position}, position ∈ survey.waiting → ∃ depth, survey.Reached position depth
  followed : ∀ {position depth instr}, survey.Reached position depth →
    program[position]? = some instr →
    position ∈ survey.waiting ∨ survey.Followed handlers position depth instr

theorem sound_start (program : Program) (handlers : Array Handler) :
    (start program.size).Sound program handlers := by
  by_cases empty : program.size = 0
  · have nothing {position depth : Nat} (known : (start program.size).Reached position depth) :
        False := by
      rw [start, if_pos empty] at known
      exact Nat.not_lt_zero _ known.lt_size
    exact {
      size := by rw [start, if_pos empty, empty]; rfl
      first := fun inside => absurd empty (Nat.ne_of_gt inside)
      pathTo := fun known => (nothing known).elim
      waiting := fun member => by
        rw [start, if_pos empty] at member
        cases member
      followed := fun known => (nothing known).elim }
  · have inside := Nat.pos_of_ne_zero empty
    have reached_iff {position depth : Nat} :
        (start program.size).Reached position depth ↔ position = 0 ∧ depth = 0 := by
      rw [start, if_neg empty, Reached, Array.getElem?_setIfInBounds]
      split
      next same => subst same; simp [inside, eq_comm]
      next differs => simp [Array.getElem?_replicate, Ne.symm differs]
    exact {
      size := by rw [start, if_neg empty, Array.size_setIfInBounds, Array.size_replicate]
      first := fun _ => reached_iff.2 ⟨rfl, rfl⟩
      pathTo := fun known => by
        obtain ⟨rfl, rfl⟩ := reached_iff.1 known
        exact .start inside
      waiting := fun member => by
        rw [start, if_neg empty] at member
        obtain rfl := List.mem_singleton.1 member
        exact ⟨0, reached_iff.2 ⟨rfl, rfl⟩⟩
      followed := fun known _ => by
        obtain ⟨rfl, -⟩ := reached_iff.1 known
        rw [start, if_neg empty]
        exact .inl List.mem_cons_self }

theorem Sound.follow {position : Nat} {rest : List Nat} (sound : survey.Sound program handlers)
    (waits : survey.waiting = position :: rest)
    (h : follow program handlers { survey with waiting := rest } position = .ok reached) :
    reached.Sound program handlers := by
  obtain ⟨depth, known⟩ := sound.waiting (waits ▸ List.mem_cons_self)
  have inside : position < program.size := sound.size ▸ known.lt_size
  have present := Array.getElem?_eq_getElem inside
  have known' : Reached { survey with waiting := rest } position depth := known
  obtain ⟨enough, reaches⟩ := follow_ok present known' h
  have size : reached.depths.size = program.size := reaches.size.trans sound.size
  have within {other seen : Nat} (now : reached.Reached other seen) : other < program.size :=
    size ▸ now.lt_size
  refine ⟨size, fun inside => reaches.keeps (sound.first inside), ?_, ?_, ?_⟩
  · intro other seen now
    rcases reaches.cases now with old | ⟨member, rfl, -⟩
    · exact sound.pathTo old
    · have leads := Instr.mem_successors_iff.1 member
      exact (sound.pathTo known).step present enough leads (within now)
  · intro other member
    rcases reaches.waiting member with earlier | arrived
    · have earlier : other ∈ survey.waiting := waits ▸ List.mem_cons_of_mem _ earlier
      obtain ⟨seen, old⟩ := sound.waiting earlier
      exact ⟨seen, reaches.keeps old⟩
    · exact ⟨_, arrived⟩
  · intro other seen instr now present'
    rcases reaches.cases now with old | ⟨-, -, member⟩
    · -- The position itself has just been followed; any other one was followed or still waits.
      by_cases same : other = position
      · subst same
        obtain rfl := known.depth_eq old
        obtain rfl := Option.some.inj (present.symm.trans present')
        right
        have deepest : reached.deepest = max survey.deepest _ := reaches.deepest
        refine ⟨enough, by omega, by omega, ?_⟩
        intro next leads inside
        exact reaches.arrives (Instr.mem_successors_iff.2 leads) (reaches.size ▸ inside)
      · rcases sound.followed old present' with earlier | followed
        · rw [waits] at earlier
          rcases List.mem_cons.1 earlier with rfl | earlier
          · exact absurd rfl same
          · exact .inl (reaches.waits earlier)
        · right
          have deepest : reached.deepest = max survey.deepest _ := reaches.deepest
          have before_le := followed.before_le
          have after_le := followed.after_le
          refine ⟨followed.enough, by omega, by omega, ?_⟩
          intro next leads inside
          exact reaches.keeps (followed.leads leads (reaches.size ▸ inside))
    · exact .inl member

theorem Sound.follow_error {position : Nat} {rest : List Nat} {error : CompileError}
    (sound : survey.Sound program handlers) (waits : survey.waiting = position :: rest)
    (h : DepthSurvey.follow program handlers { survey with waiting := rest } position =
      .error error) : PathFault program handlers error := by
  obtain ⟨depth, known⟩ := sound.waiting (waits ▸ List.mem_cons_self)
  have inside : position < program.size := sound.size ▸ known.lt_size
  have present := Array.getElem?_eq_getElem inside
  have path := sound.pathTo known
  have known' : Reached { survey with waiting := rest } position depth := known
  rcases DepthSurvey.follow_error present known' h with
    ⟨short, rfl⟩ | ⟨enough, next, member, seen, old, differs, rfl⟩
  · exact .underflow path present short
  · have inside' : next < program.size := sound.size ▸ old.lt_size
    have leads := Instr.mem_successors_iff.1 member
    exact .inconsistent (sound.pathTo old) (path.step present enough leads inside') differs

theorem finish_of_nil (waits : survey.waiting = []) :
    survey.finish program handlers = .ok survey := by
  rw [finish]
  split
  next => rfl
  next waits' =>
    rw [waits] at waits'
    cases waits'

theorem finish_of_cons {position : Nat} {rest : List Nat}
    (waits : survey.waiting = position :: rest) :
    survey.finish program handlers =
      follow program handlers { survey with waiting := rest } position >>=
        DepthSurvey.finish program handlers := by
  rw [finish]
  split
  next waits' =>
    rw [waits] at waits'
    cases waits'
  next position' rest' waits' =>
    obtain ⟨rfl, rfl⟩ := List.cons.inj (waits.symm.trans waits')
    split
    next failed => rw [failed]; rfl
    next followed => rw [followed]; rfl

/-- How a survey ends: sound and with nothing left to follow, or with an error that paths show. -/
theorem Sound.finish (sound : survey.Sound program handlers) :
    (∃ final, survey.finish program handlers = .ok final ∧ final.Sound program handlers ∧
        final.waiting = []) ∨
      ∃ error, survey.finish program handlers = .error error ∧
        PathFault program handlers error := by
  induction survey using DepthSurvey.finish.induct program handlers with
  | case1 survey waits => exact .inl ⟨survey, finish_of_nil waits, sound, waits⟩
  | case2 survey position rest waits error failed =>
    rw [finish_of_cons waits, failed]
    exact .inr ⟨error, rfl, sound.follow_error waits failed⟩
  | case3 survey position rest waits next followed ih =>
    rw [finish_of_cons waits, followed]
    exact ih (sound.follow waits followed)

theorem Sound.followed_of_nil (sound : survey.Sound program handlers) (done : survey.waiting = [])
    {position depth : Nat} {instr : Instr} (known : survey.Reached position depth)
    (present : program[position]? = some instr) :
    survey.Followed handlers position depth instr := by
  rcases sound.followed known present with waits | followed
  · rw [done] at waits
    cases waits
  · exact followed

end DepthSurvey

namespace Program

variable {program : Program} {handlers : Array Handler}

theorem sound_of_survey {survey : DepthSurvey} (h : program.survey handlers = .ok survey) :
    survey.Sound program handlers ∧ survey.waiting = [] := by
  rcases (DepthSurvey.sound_start program handlers).finish with
    ⟨final, done, sound⟩ | ⟨_, failed, _⟩
  · obtain rfl := Except.ok.inj (h.symm.trans done)
    exact sound
  · cases h.symm.trans failed

theorem pathFault_of_survey {error : CompileError} (h : program.survey handlers = .error error) :
    PathFault program handlers error := by
  rcases (DepthSurvey.sound_start program handlers).finish with ⟨_, done, _⟩ | ⟨_, failed, fault⟩
  · cases h.symm.trans done
  · obtain rfl := Except.error.inj (h.symm.trans failed)
    exact fault

theorem exists_survey_of_maxDepth {depth : Nat} (h : program.maxDepth handlers = .ok depth) :
    ∃ survey, program.survey handlers = .ok survey ∧ survey.deepest = depth :=
  map_eq_ok_iff.1 h

end Program

end TrieDispatch
