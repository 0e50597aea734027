import TrieDispatch.Proofs.Checked
import TrieDispatch.Proofs.Program.Assembly
import TrieDispatch.Proofs.Program.Binding

namespace TrieDispatch

namespace Draft

variable {directory : Directory} {landings : LandingTable} {draft next final : Draft}
  {forest : Forest}

/-- The code so far, with its placeholders bound. -/
def bound (landings : LandingTable) (draft : Draft) : List Instr :=
  draft.code.toList.mapIdx fun position => landings.bind draft.placeholders[position]?

theorem length_bound (draft : Draft) (landings : LandingTable) :
    (draft.bound landings).length = draft.code.size := by
  simp [bound]

theorem bound_start (landings : LandingTable) : start.bound landings = Program.prologue := by
  simp [bound, start, Program.prologue, LandingTable.bind]

def Bounded (draft : Draft) : Prop :=
  ∀ position landing, draft.placeholders[position]? = some landing → position < draft.code.size

theorem placeholders_start (position : Nat) : start.placeholders[position]? = none := by
  simp [start]

theorem bounded_start : start.Bounded := by
  intro position landing known
  rw [placeholders_start] at known
  cases known

theorem Bounded.free_of_le (h : draft.Bounded) {position : Nat}
    (beyond : draft.code.size ≤ position) : draft.placeholders[position]? = none := by
  by_contra known
  obtain ⟨landing, known⟩ := Option.ne_none_iff_exists'.1 known
  exact absurd (h position landing known) (Nat.not_lt.2 beyond)

@[simp]
theorem toList_append (draft : Draft) (block : List Instr) :
    (draft.append block).code.toList = draft.code.toList ++ block := by
  simp [append]

@[simp]
theorem size_append (draft : Draft) (block : List Instr) :
    (draft.append block).code.size = draft.code.size + block.length := by
  rw [← Array.length_toList, toList_append, List.length_append, Array.length_toList]

theorem placeholders_append (draft : Draft) (block : List Instr) :
    (draft.append block).placeholders = draft.placeholders := rfl

theorem Bounded.append (h : draft.Bounded) (block : List Instr) : (draft.append block).Bounded := by
  intro position landing known
  rw [size_append]
  exact Nat.lt_add_right _ (h position landing known)

theorem Bounded.place (h : draft.Bounded) {position : Nat} (inside : position < draft.code.size)
    (landing : Landing) : (draft.place position landing).Bounded := by
  intro other landing' known
  simp only [Draft.place, Std.TreeMap.getElem?_insert] at known
  split at known
  next same => exact Nat.compare_eq_eq.1 same ▸ inside
  next => exact h other landing' known

theorem bound_append (h : draft.Bounded) (block : List Instr) :
    (draft.append block).bound landings = draft.bound landings ++ block := by
  have fresh (position : Nat) : draft.placeholders[position + draft.code.size]? = none :=
    h.free_of_le (Nat.le_add_left _ _)
  have kept : block.mapIdx (fun _ => landings.bind none) = block :=
    List.mapIdx_eq_iff.2 fun _ => Option.map_id'.symm
  simp [bound, List.mapIdx_append, placeholders_append, fresh, kept]

theorem bound_place {position : Nat} {instr : Instr} (present : draft.code[position]? = some instr)
    (landing : Landing) : (draft.place position landing).bound landings =
      (draft.bound landings).set position ⟨instr.op, .target (landings.position landing)⟩ := by
  apply List.ext_getElem?
  intro other
  rw [bound, bound, List.getElem?_mapIdx, List.getElem?_set]
  simp only [Draft.place, Std.TreeMap.getElem?_insert, Array.getElem?_toList]
  by_cases same : position = other
  · subst same
    obtain ⟨inside, rfl⟩ := Array.getElem?_eq_some_iff.1 present
    simp [LandingTable.bind, inside]
  · have differs : compare position other ≠ .eq := fun equal => same (Nat.compare_eq_eq.1 equal)
    simp [same, differs]

structure Extends (draft next : Draft) : Prop where
  code : ∀ {position : Nat} {instr : Instr}, draft.code[position]? = some instr →
    next.code[position]? = some instr
  starts : ∀ {number start : Nat}, draft.starts[number]? = some start →
    next.starts[number]? = some start

theorem Extends.refl (draft : Draft) : Extends draft draft := ⟨id, id⟩

theorem Extends.trans (h : Extends draft next) (h' : Extends next final) : Extends draft final :=
  ⟨fun known => h'.code (h.code known), fun known => h'.starts (h.starts known)⟩

theorem extends_append (draft : Draft) (block : List Instr) :
    Extends draft (draft.append block) where
  code known := by
    have inside := (Array.getElem?_eq_some_iff.1 known).1
    rw [← Array.length_toList] at inside
    rw [← Array.getElem?_toList, toList_append, List.getElem?_append_left inside,
      Array.getElem?_toList, known]
  starts := id

theorem extends_place (draft : Draft) (position : Nat) (landing : Landing) :
    Extends draft (draft.place position landing) := ⟨id, id⟩

theorem extends_beginNode (draft : Draft) : Extends draft draft.beginNode where
  code := id
  starts known := by
    have inside := (Array.getElem?_eq_some_iff.1 known).1
    rw [beginNode, Array.getElem?_push_lt inside, ← known, Array.getElem?_eq_getElem inside]

theorem getElem?_append (draft : Draft) {block : List Instr} {index : Nat} {instr : Instr}
    (present : block[index]? = some instr) :
    (draft.append block).code[draft.code.size + index]? = some instr := by
  rw [← Array.getElem?_toList, toList_append, ← Array.length_toList,
    List.getElem?_append_right (Nat.le_add_right _ _), Nat.add_sub_cancel_left, present]

theorem bound_place_of_written {later : Draft} {block more : List Instr} {index : Nat}
    {instr : Instr} (present : later.code[draft.code.size + index]? = some instr)
    (inside : index < block.length)
    (written : later.bound landings = draft.bound landings ++ (block ++ more))
    (landing : Landing) :
    (later.place (draft.code.size + index) landing).bound landings = draft.bound landings ++
      (block.set index ⟨instr.op, .target (landings.position landing)⟩ ++ more) := by
  rw [bound_place present, written, ← length_bound draft landings,
    List.set_append_right _ _ (Nat.le_add_right _ _), Nat.add_sub_cancel_left,
    List.set_append_left _ _ inside]

theorem bound_append_place (h : draft.Bounded) {block : List Instr} {index : Nat} {instr : Instr}
    (present : block[index]? = some instr) (landing : Landing) :
    ((draft.append block).place (draft.code.size + index) landing).bound landings =
      draft.bound landings ++
        block.set index ⟨instr.op, .target (landings.position landing)⟩ := by
  have inside : index < block.length := (List.getElem?_eq_some_iff.1 present).1
  have written : (draft.append block).bound landings = draft.bound landings ++ (block ++ []) := by
    rw [bound_append h, List.append_nil]
  rw [bound_place_of_written (getElem?_append draft present) inside written, List.append_nil]

theorem emitName_of_entry {children : Forest} {name : String} {position : Nat} {handler : Handler}
    (known : directory.located? name = some (position, handler)) :
    emitName directory children name draft =
      .ok ((draft.append (Program.compareLength ++ Program.callHandler handler position ++
        Program.answer true)).place (draft.code.size + 2)
          (if children.isNil then .epilogue else .subtree draft.starts.size)) := by
  simp only [Directory.located?] at known
  split at known
  next position' handler' placed found =>
    cases known
    simp only [emitName, placed, found]
  next => cases known

theorem emitName_of_unknown {children : Forest} {name : String}
    (unknown : directory.located? name = none) :
    emitName directory children name draft = .error (.unknownHandler name) := by
  simp only [Directory.located?] at unknown
  split at unknown
  next => cases unknown
  next missing =>
    rw [emitName]
    split
    next position handler placed found => exact (missing position handler placed found).elim
    next => rfl

/-- The first child and the next sibling begin where their forest begins. -/
theorem position_of_start {number start : Nat}
    (begins : forest.isNil = false → landings.starts[number]? = some start) :
    landings.position (if forest.isNil then .epilogue else .subtree number) =
      if forest.isNil then landings.epilogue else start := by
  cases empty : forest.isNil with
  | true => rfl
  | false => simp [LandingTable.position, begins empty]

def emitEnd (directory : Directory) (children : Forest) (name : Option String) (draft : Draft) :
    Except CompileError Draft :=
  match name with
  | none => .ok draft
  | some name => draft.emitName directory children name

theorem emitForest_cons (label : Char) (id : Nat) (name : Option String)
    (children siblings : Forest) :
    emitForest directory (.cons label id name children siblings) draft =
      (emitEnd directory children name
        (draft.beginNode.append (Program.compareLabel label ++ Program.advance)) >>= fun named =>
      emitForest directory children named >>= fun below =>
      emitForest directory siblings (below.place (draft.code.size + 4)
        (if siblings.isNil then .epilogue else .subtree below.starts.size))) := by
  cases name <;> rfl

theorem emitEnd_adds {children : Forest} {name : Option String}
    (h : emitEnd directory children name draft = .ok next) (bounded : draft.Bounded) :
    Extends draft next ∧ next.Bounded ∧ next.starts = draft.starts ∧
      ∀ landings : LandingTable,
        (children.isNil = false → landings.starts[draft.starts.size]? = some next.code.size) →
        next.bound landings = draft.bound landings ++
          Forest.nameCode directory landings.epilogue children name draft.code.size := by
  cases name with
  | none =>
    obtain rfl := Except.ok.inj h
    exact ⟨.refl _, bounded, rfl, fun _ _ => (List.append_nil _).symm⟩
  | some name =>
    change emitName directory children name draft = .ok next at h
    cases known : directory.located? name with
    | none =>
      rw [emitName_of_unknown known] at h
      cases h
    | some entry =>
      obtain ⟨position, handler⟩ := entry
      rw [emitName_of_entry known] at h
      obtain rfl := Except.ok.inj h
      refine ⟨(extends_append _ _).trans (extends_place _ _ _),
        (bounded.append _).place ?_ _, rfl, ?_⟩
      · rw [size_append]
        exact Nat.add_lt_add_left (by simp [Program.compareLength]) _
      · intro landings goesOn
        have branch : (Program.compareLength ++ Program.callHandler handler position ++
            Program.answer true)[2]? = some ⟨.branchNe, .pending⟩ := rfl
        rw [bound_append_place bounded branch]
        rw [position_of_start goesOn]
        simp only [Forest.nameCode, Option.bind_some, known, Instr.branchTo, place, size_append]

/-- Emitting a forest appends its code, once the table gives the starts of its nodes. -/
structure Emits (directory : Directory) (forest : Forest) (draft final : Draft) : Prop extends
    Extends draft final where
  bounded : final.Bounded
  first : forest.isNil = false → final.starts[draft.starts.size]? = some draft.code.size
  bound : ∀ landings : LandingTable,
    (∀ {number start : Nat}, final.starts[number]? = some start →
      landings.starts[number]? = some start) →
    final.bound landings = draft.bound landings ++
      forest.code directory landings.epilogue draft.code.size

theorem emits_nil (bounded : draft.Bounded) : Emits directory .nil draft draft where
  toExtends := .refl _
  bounded := bounded
  first nonempty := by cases nonempty
  bound _ _ := (List.append_nil _).symm

theorem emits_cons {label : Char} {id : Nat} {name : Option String} {children siblings : Forest}
    {named lower : Draft} (bounded : draft.Bounded)
    (nameDone : emitEnd directory children name
      (draft.beginNode.append (Program.compareLabel label ++ Program.advance)) = .ok named)
    (lowerDone : named.Bounded → Emits directory children named lower)
    (restDone : (lower.place (draft.code.size + 4)
        (if siblings.isNil then .epilogue else .subtree lower.starts.size)).Bounded →
      Emits directory siblings (lower.place (draft.code.size + 4)
        (if siblings.isNil then .epilogue else .subtree lower.starts.size)) final) :
    Emits directory (.cons label id name children siblings) draft final := by
  let block := Program.compareLabel label ++ Program.advance
  let compared := draft.beginNode.append block
  have begun : draft.beginNode.Bounded := bounded
  have started : compared.starts[draft.starts.size]? = some draft.code.size :=
    Array.getElem?_push_size
  have pending : compared.code[draft.code.size + 4]? = some ⟨.branchNe, .pending⟩ :=
    getElem?_append draft.beginNode rfl
  obtain ⟨toNamed, bounded', starts, nameBound⟩ := emitEnd_adds nameDone (begun.append block)
  have lowerDone := lowerDone bounded'
  have branch := lowerDone.code (toNamed.code pending)
  have restDone := restDone (lowerDone.bounded.place (Array.getElem?_eq_some_iff.1 branch).1 _)
  -- The final draft has all starts, so each part is bound by a table that agrees with it.
  have toFinal := (extends_place _ _ _).trans restDone.toExtends
  have fromCompared := (toNamed.trans lowerDone.toExtends).trans toFinal
  refine ⟨((extends_beginNode draft).trans (extends_append _ block)).trans fromCompared,
    restDone.bounded, fun _ => fromCompared.starts started, ?_⟩
  intro landings agree
  have size : compared.code.size = draft.code.size + 9 := size_append _ _
  have comparedBound : compared.bound landings = draft.bound landings ++ block :=
    bound_append begun block
  have namedBound := nameBound landings fun goesOn => by
    rw [← starts]
    exact agree (toFinal.starts (lowerDone.first goesOn))
  have lowerBound := lowerDone.bound landings fun known => agree (toFinal.starts known)
  have mismatch : landings.position
      (if siblings.isNil then .epilogue else .subtree lower.starts.size) =
        if siblings.isNil then landings.epilogue else lower.code.size :=
    position_of_start fun goesOn => agree (restDone.first goesOn)
  have namedSize := congrArg List.length namedBound
  have lowerSize := congrArg List.length lowerBound
  rw [List.length_append, length_bound, length_bound, size] at namedSize
  rw [List.length_append, length_bound, length_bound, namedSize] at lowerSize
  have written : lower.bound landings = draft.bound landings ++ (block ++
      (Forest.nameCode directory landings.epilogue children name (draft.code.size + 9) ++
        children.code directory landings.epilogue named.code.size)) := by
    rw [lowerBound, namedBound, comparedBound, size, List.append_assoc, List.append_assoc]
  have rest := restDone.bound landings agree
  have inside : 4 < block.length := by simp [block, Program.compareLabel]
  rw [bound_place_of_written branch inside written, mismatch,
    show (lower.place _ _).code.size = lower.code.size from rfl, lowerSize] at rest
  rw [rest, Forest.code]
  simp only [List.append_assoc, namedSize]
  rfl

theorem emits_of_emitForest (h : emitForest directory forest draft = .ok final)
    (bounded : draft.Bounded) : Emits directory forest draft final := by
  induction forest generalizing draft final with
  | nil =>
    obtain rfl := Except.ok.inj h
    exact emits_nil bounded
  | cons label id name children siblings below beside =>
    rw [emitForest_cons] at h
    obtain ⟨named, nameDone, h⟩ := bind_eq_ok_iff.1 h
    obtain ⟨lower, lowerDone, h⟩ := bind_eq_ok_iff.1 h
    exact emits_cons bounded nameDone (below lowerDone) (beside h)

theorem exists_emitEnd {children : Forest} {name : Option String}
    (known : ∀ stored ∈ name.toList, (directory.located? stored).isSome) (draft : Draft) :
    ∃ named, emitEnd directory children name draft = .ok named := by
  cases name with
  | none => exact ⟨draft, rfl⟩
  | some name =>
    obtain ⟨⟨position, handler⟩, entry⟩ :=
      Option.isSome_iff_exists.1 (known name (List.mem_singleton_self name))
    exact ⟨_, emitName_of_entry entry⟩

theorem exists_emitForest (known : ∀ name ∈ forest.names, (directory.located? name).isSome)
    (draft : Draft) : ∃ final, emitForest directory forest draft = .ok final := by
  induction forest generalizing draft with
  | nil => exact ⟨draft, rfl⟩
  | cons label id name children siblings below beside =>
    rw [Forest.names, List.forall_mem_append, List.forall_mem_append] at known
    obtain ⟨own, lowerKnown, restKnown⟩ := known
    rw [emitForest_cons]
    obtain ⟨named, done⟩ := exists_emitEnd own
      (draft.beginNode.append (Program.compareLabel label ++ Program.advance))
    obtain ⟨lower, done'⟩ := below lowerKnown named
    rw [done, bind_ok, done', bind_ok]
    exact beside restKnown _

theorem emitForest_of_unknown {name : String}
    (first : forest.names.find? (fun name => (directory.located? name).isNone) = some name)
    (draft : Draft) : emitForest directory forest draft = .error (.unknownHandler name) := by
  induction forest generalizing draft with
  | nil => cases first
  | cons label id stored children siblings below beside =>
    have known {names : List String}
        (none : names.find? (fun name => (directory.located? name).isNone) = none) :
        ∀ name ∈ names, (directory.located? name).isSome := fun name member =>
      Option.isNone_eq_false_iff.1 (Bool.of_not_eq_true (List.find?_eq_none.1 none name member))
    rw [Forest.names, List.find?_append, List.find?_append] at first
    rw [emitForest_cons]
    rcases Option.or_eq_some_iff.1 first with own | ⟨ownKnown, first⟩
    · have unknown := List.find?_some own
      obtain rfl := Option.mem_toList.1 (List.mem_of_find?_eq_some own)
      rw [emitEnd, emitName_of_unknown (Option.isNone_iff_eq_none.1 unknown)]
      rfl
    · obtain ⟨named, done⟩ := exists_emitEnd (known ownKnown)
        (draft.beginNode.append (Program.compareLabel label ++ Program.advance))
      rw [done, bind_ok]
      rcases Option.or_eq_some_iff.1 first with first | ⟨lowerKnown, first⟩
      · rw [below first named]
        rfl
      · obtain ⟨lower, done'⟩ := exists_emitForest (known lowerKnown) named
        rw [done', bind_ok]
        exact beside first _

end Draft

end TrieDispatch
