import Mathlib.Order.Bounds.Defs
import Mathlib.Order.MinMax
import TrieDispatch.Proofs.Program.Surveys

/-!
# Depths on paths

A survey visits every instruction once, and still it misses none of the paths, of which a program
with a loop has no end.
-/

namespace TrieDispatch

/-- The depths before and after the instructions on paths. -/
inductive PathDepth (program : Program) (handlers : Array Handler) : Nat → Prop
  | before {position depth : Nat} : PathTo program handlers position depth →
      PathDepth program handlers depth
  | after {position depth : Nat} {instr : Instr} : PathTo program handlers position depth →
      program[position]? = some instr → (instr.stackEffect handlers).pops ≤ depth →
      PathDepth program handlers ((instr.stackEffect handlers).after depth)

/-- No path makes an instruction pop more than is there, and any two paths to an instruction have
the same depth. -/
structure PathsAgree (program : Program) (handlers : Array Handler) : Prop where
  enough : ∀ {position depth : Nat} {instr : Instr}, PathTo program handlers position depth →
    program[position]? = some instr → (instr.stackEffect handlers).pops ≤ depth
  same : ∀ {position depth other : Nat}, PathTo program handlers position depth →
    PathTo program handlers position other → depth = other

/-- The largest depth on any path. A program without instructions has no path, and no depth. -/
def DeepestOnPaths (program : Program) (handlers : Array Handler) (depth : Nat) : Prop :=
  if program.size = 0 then depth = 0
  else IsGreatest {depth | PathDepth program handlers depth} depth

variable {program : Program} {handlers : Array Handler}

theorem PathTo.lt_size {position depth : Nat} (path : PathTo program handlers position depth) :
    position < program.size := by
  cases path with
  | start inside => exact inside
  | step _ _ _ _ inside => exact inside

theorem PathsAgree.not_pathFault (agree : PathsAgree program handlers) {error : CompileError} :
    ¬PathFault program handlers error := by
  rintro (⟨path, present, short⟩ | ⟨path, path', differs⟩)
  · exact absurd (agree.enough path present) (Nat.not_le_of_lt short)
  · exact differs (agree.same path path')

theorem DeepestOnPaths.unique {depth other : Nat} (h : DeepestOnPaths program handlers depth)
    (h' : DeepestOnPaths program handlers other) : depth = other := by
  unfold DeepestOnPaths at h h'
  split at h
  next empty =>
    rw [if_pos empty] at h'
    exact h.trans h'.symm
  next nonempty =>
    rw [if_neg nonempty] at h'
    exact Nat.le_antisymm (h'.2 h.1) (h.2 h'.1)

namespace DepthSurvey

variable {survey reached final : DepthSurvey}

/-- The deepest stack so far is one that a path has, as soon as there are paths. -/
def Attained (program : Program) (handlers : Array Handler) (survey : DepthSurvey) : Prop :=
  if program.size = 0 then survey.deepest = 0 else PathDepth program handlers survey.deepest

theorem attained_start (program : Program) (handlers : Array Handler) :
    (start program.size).Attained program handlers := by
  rw [Attained, start]
  split
  next => rfl
  next nonempty => exact .before (.start (Nat.pos_of_ne_zero nonempty))

theorem Attained.follow {position : Nat} {rest : List Nat}
    (attained : survey.Attained program handlers) (sound : survey.Sound program handlers)
    (waits : survey.waiting = position :: rest)
    (h : follow program handlers { survey with waiting := rest } position = .ok reached) :
    reached.Attained program handlers := by
  obtain ⟨depth, known⟩ := sound.waiting (waits ▸ List.mem_cons_self)
  have inside : position < program.size := sound.size ▸ known.lt_size
  have present := Array.getElem?_eq_getElem inside
  have path := sound.pathTo known
  have known' : Reached { survey with waiting := rest } position depth := known
  obtain ⟨enough, reaches⟩ := follow_ok present known' h
  have deepest : reached.deepest = max survey.deepest (max depth _) := reaches.deepest
  have nonempty : program.size ≠ 0 := Nat.ne_zero_of_lt inside
  rw [Attained, if_neg nonempty] at attained ⊢
  rw [deepest]
  rcases max_choice survey.deepest (max depth _) with same | same <;> rw [same]
  · exact attained
  rcases max_choice depth _ with same | same <;> rw [same]
  · exact .before path
  · exact .after path present enough

theorem Attained.finish (attained : survey.Attained program handlers)
    (sound : survey.Sound program handlers) (done : survey.finish program handlers = .ok final) :
    final.Attained program handlers := by
  induction survey using DepthSurvey.finish.induct program handlers with
  | case1 survey waits =>
    rw [finish_of_nil waits] at done
    exact Except.ok.inj done ▸ attained
  | case2 survey position rest waits error failed =>
    rw [finish_of_cons waits, failed] at done
    cases done
  | case3 survey position rest waits next followed ih =>
    rw [finish_of_cons waits, followed] at done
    exact ih (attained.follow sound waits followed) (sound.follow waits followed) done

section

variable (sound : survey.Sound program handlers) (done : survey.waiting = [])

include sound done

theorem Sound.reached_of_pathTo {position depth : Nat}
    (path : PathTo program handlers position depth) : survey.Reached position depth := by
  induction path with
  | start inside => exact sound.first inside
  | step path present _ leads inside ih =>
    have followed := sound.followed_of_nil done ih present
    exact followed.leads leads (sound.size.symm ▸ inside)

theorem Sound.followed_of_pathTo {position depth : Nat} {instr : Instr}
    (path : PathTo program handlers position depth) (present : program[position]? = some instr) :
    survey.Followed handlers position depth instr :=
  sound.followed_of_nil done (sound.reached_of_pathTo done path) present

theorem Sound.pathsAgree : PathsAgree program handlers where
  enough path present := (sound.followed_of_pathTo done path present).enough
  same path path' :=
    (sound.reached_of_pathTo done path).depth_eq (sound.reached_of_pathTo done path')

theorem Sound.le_deepest {depth : Nat} (deep : PathDepth program handlers depth) :
    depth ≤ survey.deepest := by
  cases deep with
  | before path =>
    have present := Array.getElem?_eq_getElem path.lt_size
    exact (sound.followed_of_pathTo done path present).before_le
  | after path present => exact (sound.followed_of_pathTo done path present).after_le

end

end DepthSurvey

namespace Program

theorem deepestOnPaths_of_survey {survey : DepthSurvey} (h : program.survey handlers = .ok survey) :
    DeepestOnPaths program handlers survey.deepest := by
  obtain ⟨sound, done⟩ := sound_of_survey h
  have attained := (DepthSurvey.attained_start program handlers).finish
    (DepthSurvey.sound_start program handlers) h
  rw [DepthSurvey.Attained] at attained
  rw [DeepestOnPaths]
  split
  next empty => rwa [if_pos empty] at attained
  next nonempty =>
    rw [if_neg nonempty] at attained
    exact ⟨attained, fun depth deep => sound.le_deepest done deep⟩

theorem maxDepth_of_agree (agree : PathsAgree program handlers) :
    ∃ depth, program.maxDepth handlers = .ok depth ∧ DeepestOnPaths program handlers depth := by
  cases surveyed : program.survey handlers with
  | error error => exact absurd (pathFault_of_survey surveyed) agree.not_pathFault
  | ok survey =>
    exact ⟨survey.deepest, map_eq_ok_iff.2 ⟨survey, surveyed, rfl⟩,
      deepestOnPaths_of_survey surveyed⟩

/-- The survey is exact. It gives a depth just when no path underflows and all paths agree, and the
depth is the largest on any path. Otherwise it names an instruction that some path reaches with too
few values, or one that two paths reach with different depths. -/
theorem maxDepth_exact (program : Program) (handlers : Array Handler) :
    (∀ depth, program.maxDepth handlers = .ok depth ↔
      PathsAgree program handlers ∧ DeepestOnPaths program handlers depth) ∧
    (∀ error, program.maxDepth handlers = .error error →
      (∃ position, error = .stackUnderflow position) ∨
        ∃ position, error = .inconsistentDepth position) ∧
    (∀ position, program.maxDepth handlers = .error (.stackUnderflow position) →
      ∃ depth instr, PathTo program handlers position depth ∧ program[position]? = some instr ∧
        depth < (instr.stackEffect handlers).pops) ∧
    ∀ position, program.maxDepth handlers = .error (.inconsistentDepth position) →
      ∃ depth other, PathTo program handlers position depth ∧
        PathTo program handlers position other ∧ depth ≠ other := by
  have fault {error : CompileError} (failed : program.maxDepth handlers = .error error) :
      PathFault program handlers error := pathFault_of_survey (map_eq_error_iff.1 failed)
  refine ⟨fun depth => ⟨fun done => ?_, ?_⟩, fun error failed => ?_, fun position failed => ?_,
    fun position failed => ?_⟩
  · obtain ⟨survey, surveyed, rfl⟩ := exists_survey_of_maxDepth done
    obtain ⟨sound, finished⟩ := sound_of_survey surveyed
    exact ⟨sound.pathsAgree finished, deepestOnPaths_of_survey surveyed⟩
  · rintro ⟨agree, deepest⟩
    obtain ⟨other, done, deepest'⟩ := maxDepth_of_agree agree
    rwa [deepest.unique deepest']
  · rcases fault failed with ⟨-⟩ | ⟨-⟩
    · exact .inl ⟨_, rfl⟩
    · exact .inr ⟨_, rfl⟩
  · cases fault failed with
    | underflow path present short => exact ⟨_, _, path, present, short⟩
  · cases fault failed with
    | inconsistent path path' differs => exact ⟨_, _, path, path', differs⟩

example : maxDepth #[⟨.loadConst, .const 0⟩, ⟨.loadConst, .const 1⟩, ⟨.loadConst, .const 2⟩,
    .plain .add, ⟨.loadConst, .const 3⟩, ⟨.branchNe, .target 1⟩, ⟨.loadConst, .const 4⟩] #[] =
      .ok 3 := by
  decide +kernel

end Program

end TrieDispatch
