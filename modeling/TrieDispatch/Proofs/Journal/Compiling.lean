import TrieDispatch.Journal.Compiling
import TrieDispatch.Proofs.Code.Relaxation
import TrieDispatch.Proofs.Emissions

/-! # The log of a compilation -/

namespace TrieDispatch.Journal

open Program

/-- The nodes of a forest in preorder, the topmost at `depth`, the first of them sibling `index` of
`count`. -/
def nodesBegun : Forest → (depth index count : Nat) → List Event
  | .nil, _, _, _ => []
  | .cons label _ _ children siblings, depth, index, count =>
    nodeBegun label depth index count ::
      (nodesBegun children (depth + 1) 1 children.edges.length ++
        nodesBegun siblings depth (index + 1) count)

def passesMade (program : Program) : (count passes : Nat) → Array Opcode → List Event
  | 0, _, _ => []
  | count + 1, passes, forms =>
    let widened := program.widen forms
    passMade (passes + 1) (widened.count .branchNe - forms.count .branchNe)
      ((layout forms).back?.getD 0) :: passesMade program count (passes + 1) widened

variable {directory : Directory} {forest : Forest} {program : Program} {forms final : Array Opcode}
  {depth index count : Nat}

theorem addNodes_eq (known : ∀ name ∈ forest.names, directory.contains name = true)
    (events : Array Event) :
    addNodes directory forest depth index count events =
      (events ++ nodesBegun forest depth index count, true) := by
  induction forest generalizing depth index count events with
  | nil => simp [addNodes, nodesBegun]
  | cons label id name children siblings below beside =>
    rw [Forest.names, List.forall_mem_append, List.forall_mem_append] at known
    obtain ⟨own, lower, rest⟩ := known
    have begins : name.all directory.contains = true := by
      cases name with
      | none => rfl
      | some name => exact own name (by simp)
    rw [addNodes, if_pos begins, below lower]
    show addNodes directory siblings _ _ _ _ = _
    rw [beside rest, nodesBegun]
    exact Prod.ext (Array.toList_inj.1 (by simp)) rfl

theorem count_add_of_widens {before after : List Opcode}
    (h : List.Forall₂ Opcode.Widens before after) :
    before.count .branchNeShort + before.count .branchNe =
      after.count .branchNeShort + after.count .branchNe := by
  induction h with
  | nil => rfl
  | cons widens _ ih =>
    cases widens with
    | refl =>
      simp only [List.count_cons]
      omega
    | long =>
      simp only [List.count_cons, BEq.rfl, if_true, show (Opcode.branchNeShort == .branchNe) = false
        from rfl, show (Opcode.branchNe == .branchNeShort) = false from rfl]
      omega

theorem count_branchNe_widen (program : Program) (forms : Array Opcode) :
    (program.widen forms).count .branchNe - forms.count .branchNe = 0 ↔
      program.widen forms = forms := by
  constructor
  · intro none
    have total := count_add_of_widens (narrower_widen program forms)
    rcases count_of_widens (narrower_widen program forms) with same | fewer
    · exact (Array.toList_inj.1 same).symm
    · simp only [Array.count_toList] at total fewer
      omega
  · intro still
    rw [still, Nat.sub_self]

theorem lt_of_settle {budget passes total : Nat}
    (settled : program.settle budget passes forms = .ok (final, total)) : passes < total := by
  induction budget generalizing passes forms with
  | zero => cases settled
  | succ budget ih =>
    rw [settle] at settled
    split at settled
    next =>
      cases settled
      exact Nat.lt_succ_self _
    next => exact Nat.lt_of_succ_lt (ih settled)

theorem addPasses_eq {budget passes : Nat}
    (settled : program.settle budget passes forms = .ok (final, passes + count))
    (events : Array Event) :
    addPasses program budget passes forms events =
      events ++ passesMade program count passes forms := by
  induction budget generalizing passes forms count events with
  | zero => cases settled
  | succ budget ih =>
    rw [settle] at settled
    rw [addPasses]
    -- The log ends with the first pass that makes no branch long.
    by_cases still : program.widen forms = forms
    · rw [if_pos still] at settled
      obtain ⟨-, same⟩ := Prod.mk.inj (Except.ok.inj settled)
      obtain rfl : 1 = count := Nat.add_left_cancel same
      rw [if_pos ((count_branchNe_widen program forms).2 still)]
      simp [passesMade]
    · rw [if_neg still] at settled
      rw [if_neg (mt (count_branchNe_widen program forms).1 still)]
      obtain ⟨count, rfl⟩ := Nat.exists_eq_add_one_of_ne_zero fun none : count = 0 => by
        have := lt_of_settle settled
        omega
      rw [ih (by rwa [Nat.add_right_comm, Nat.add_assoc]), passesMade]
      exact Array.toList_inj.1 (by simp)

theorem encoding_eq {maxPasses : Nat} {encoded : Encoding}
    (done : program.encode maxPasses = .ok encoded) :
    ∃ short, program.forms = .ok short ∧
      encoding program maxPasses = (passesMade program encoded.stats.passes 0 short).toArray := by
  obtain ⟨short, formed, rest⟩ := bind_eq_ok_iff.1 done
  obtain ⟨⟨final, passes⟩, settled, rest⟩ := bind_eq_ok_iff.1 rest
  dsimp only at rest
  split at rest
  next => cases rest
  next =>
    cases rest
    refine ⟨short, formed, ?_⟩
    rw [encoding, formed]
    dsimp only
    rw [addPasses_eq (by rwa [Nat.zero_add])]
    exact Array.toList_inj.1 (by simp [stats])

theorem resolving_eq {landings : LandingTable} {placeholders : Placeholders} {bound : Nat}
    {resolved : Program}
    (done : program.resolve landings placeholders = (resolved, .ok bound)) :
    resolving landings placeholders program = (placeholders.toList.map fun entry =>
      branchBound landings entry.1 entry.2).toArray ∧ bound = placeholders.size := by
  have outcome := program.resolve_snd landings placeholders
  rw [done] at outcome
  dsimp only at outcome
  split at outcome
  next => cases outcome
  next none_outside =>
    split at outcome
    next => cases outcome
    next =>
      have inside : ∀ entry ∈ placeholders.toList, entry.1 < program.size := by
        simpa using List.find?_eq_none.1 none_outside
      have whole : placeholders.toList.takeWhile (fun entry => entry.1 < program.size) =
          placeholders.toList := by
        rw [← List.append_nil placeholders.toList, List.takeWhile_append_of_pos fun entry member =>
          decide_eq_true (inside entry member), List.takeWhile_nil]
      refine ⟨?_, Except.ok.inj outcome⟩
      rw [resolving]
      exact congrArg (fun entries => (List.map _ entries).toArray) whole

end TrieDispatch.Journal

namespace TrieDispatch

/-- What the stages of a compilation have given. -/
structure Compilation.Made (handlers : List Handler) (settings : CompilerSettings)
    (compilation : Compilation) : Prop where
  directory : Directory.ofDistinct handlers = .ok compilation.directory
  trie : Trie.ofNames (handlers.map Handler.name) = .ok compilation.trie
  emission : Emission.ofTrie compilation.directory compilation.trie = .ok compilation.emission
  program : compilation.emission.code.resolve compilation.emission.landings
    compilation.emission.placeholders = (compilation.program, .ok compilation.bound)
  depth : compilation.program.maxDepth compilation.directory.handlers = .ok compilation.depth
  encoding : compilation.program.encode settings.maxEncodePasses = .ok compilation.encoding

variable {handlers : List Handler} {settings : CompilerSettings} {compilation : Compilation}

theorem Compilation.made_of_ofHandlers
    (done : Compilation.ofHandlers handlers settings = .ok compilation) :
    Compilation.Made handlers settings compilation := by
  obtain ⟨directory, accepted, afterDirectory⟩ := bind_eq_ok_iff.1 done
  obtain ⟨trie, built, afterTrie⟩ := bind_eq_ok_iff.1 afterDirectory
  obtain ⟨emission, emitted, afterEmission⟩ := bind_eq_ok_iff.1 afterTrie
  cases resolved : emission.code.resolve emission.landings emission.placeholders with
  | mk program outcome =>
  rw [resolved] at afterEmission
  obtain ⟨bound, sound, afterResolving⟩ := bind_eq_ok_iff.1 afterEmission
  obtain ⟨depth, surveyed, afterSurvey⟩ := bind_eq_ok_iff.1 afterResolving
  obtain ⟨encoding, encoded, made⟩ := bind_eq_ok_iff.1 afterSurvey
  cases made
  exact ⟨accepted, built, emitted, sound ▸ resolved, surveyed, encoded⟩

theorem Compilation.Made.contains (made : compilation.Made handlers settings) :
    ∀ name ∈ compilation.trie.names, compilation.directory.contains name = true := by
  intro name member
  obtain ⟨entry, known⟩ := Option.isSome_iff_exists.1
    (Emission.exists_ofTrie_iff.1 ⟨_, made.emission⟩ name member)
  have placed := (Directory.located?_eq_some known).1
  rw [Directory.contains, Std.TreeMap.contains_eq_isSome_getElem?]
  exact Option.isSome_iff_exists.2 ⟨_, placed⟩

namespace Journal

section

variable {α β : Type} (f : α → ExceptT CompileError (StateM (Array Event)) β) (events : Array Event)

theorem run_mk (x : Except CompileError α) :
    (ExceptT.mk (pure x) >>= f).run.run events =
      match x with
      | .ok a => (f a).run.run events
      | .error error => (.error error, events) := by
  cases x <;> rfl

theorem run_modify (change : Array Event → Array Event)
    (rest : Unit → ExceptT CompileError (StateM (Array Event)) β) :
    (modify change >>= rest).run.run events = (rest ()).run.run (change events) := rfl

end

/-- The log of a successful compilation: the trie, its nodes in preorder, the placeholders in
ascending order, the passes, and the summary. -/
theorem compiling_of_ok (done : Compilation.ofHandlers handlers settings = .ok compilation)
    (point : HookPoint) :
    ∃ short, compilation.program.forms = .ok short ∧
      (compiling point handlers settings).toList = trieBuilt compilation.trie ::
        (nodesBegun compilation.trie.branches 1 1 compilation.trie.branches.edges.length ++
          (compilation.emission.placeholders.toList.map fun entry =>
            branchBound compilation.emission.landings entry.1 entry.2) ++
          passesMade compilation.program compilation.encoding.stats.passes 0 short ++
          routineCompiled compilation point ::
            if settings.traceListing then [routineListed (compilation.routine point)] else []) := by
  have made := Compilation.made_of_ofHandlers done
  obtain ⟨short, formed, passes⟩ := encoding_eq made.encoding
  refine ⟨short, formed, ?_⟩
  have staged : ((stages handlers settings).run.run #[]).2 =
      #[trieBuilt compilation.trie] ++ emitting compilation.directory compilation.trie ++
        resolving compilation.emission.landings compilation.emission.placeholders
          compilation.emission.code ++
        encoding compilation.program settings.maxEncodePasses := by
    simp only [stages, run_mk, run_modify, made.directory, made.trie, made.emission, made.program,
      made.depth]
    rfl
  rw [compiling, staged, summary, done, emitting, addNodes_eq made.contains,
    (resolving_eq made.program).1, passes]
  cases settings.traceListing <;> simp

def summaryTarget : String := "hookdispatch::compiler"

def stageTargets : List String :=
  ["hookdispatch::trie", "hookdispatch::compiler::emit", "hookdispatch::compiler::fixup",
    "hookdispatch::encoder"]

def Staged (events : Array Event) : Prop := ∀ event ∈ events, event.target ∈ stageTargets

theorem staged_empty : Staged #[] := by simp [Staged]

theorem Staged.push {events : Array Event} {event : Event} (h : Staged events)
    (known : event.target ∈ stageTargets) : Staged (events.push event) := by
  intro other member
  rcases Array.mem_push.1 member with earlier | rfl
  · exact h other earlier
  · exact known

theorem Staged.append {events more : Array Event} (h : Staged events) (h' : Staged more) :
    Staged (events ++ more) := by
  intro event member
  exact (Array.mem_append.1 member).elim (h event) (h' event)

theorem staged_addNodes (directory : Directory) (forest : Forest) (depth index count : Nat)
    {events : Array Event} (staged : Staged events) :
    Staged (addNodes directory forest depth index count events).1 := by
  induction forest generalizing depth index count events with
  | nil => exact staged
  | cons label id name children siblings below beside =>
    have begun : Staged (events.push (nodeBegun label depth index count)) :=
      staged.push (by simp [nodeBegun, stageTargets])
    rw [addNodes]
    split
    next =>
      have lower := below (depth + 1) 1 children.edges.length begun
      split
      next next more =>
        rw [more] at lower
        exact beside depth (index + 1) count lower
      next => exact lower
    next => exact begun

theorem staged_resolving (landings : LandingTable) (placeholders : Placeholders)
    (program : Program) : Staged (resolving landings placeholders program) := by
  intro event member
  obtain ⟨entry, -, rfl⟩ := List.mem_map.1 (List.mem_toArray.1 member)
  simp [branchBound, stageTargets]

theorem staged_addPasses (program : Program) (budget passes : Nat) (forms : Array Opcode)
    {events : Array Event} (staged : Staged events) :
    Staged (addPasses program budget passes forms events) := by
  induction budget generalizing passes forms events with
  | zero => exact staged
  | succ budget ih =>
    rw [addPasses]
    have made : Staged (events.push (passMade (passes + 1)
        ((program.widen forms).count .branchNe - forms.count .branchNe)
        ((Program.layout forms).back?.getD 0))) :=
      staged.push (by simp [passMade, stageTargets])
    split
    next => exact made
    next => exact ih _ _ made

theorem staged_encoding (program : Program) (maxPasses : Nat) :
    Staged (encoding program maxPasses) := by
  rw [encoding]
  split
  next => exact staged_empty
  next => exact staged_addPasses _ _ _ _ staged_empty

/-- An action that adds only events of the stages. -/
def KeepsStaged {α : Type} (action : ExceptT CompileError (StateM (Array Event)) α) : Prop :=
  ∀ events, Staged events → Staged (action.run.run events).2

section

variable {α β : Type}

theorem keepsStaged_mk (x : Except CompileError α)
    {rest : α → ExceptT CompileError (StateM (Array Event)) β} (h : ∀ a, KeepsStaged (rest a)) :
    KeepsStaged (ExceptT.mk (pure x) >>= rest) := by
  intro events staged
  rw [run_mk]
  cases x with
  | error error => exact staged
  | ok a => exact h a events staged

theorem keepsStaged_modify {change : Array Event → Array Event}
    (adds : ∀ events, Staged events → Staged (change events))
    {rest : Unit → ExceptT CompileError (StateM (Array Event)) β} (h : KeepsStaged (rest ())) :
    KeepsStaged (modify change >>= rest) := by
  intro events staged
  exact h _ (adds events staged)

end

theorem keepsStaged_stages (handlers : List Handler) (settings : CompilerSettings) :
    KeepsStaged (stages handlers settings) := by
  refine keepsStaged_mk _ fun directory => keepsStaged_mk _ fun trie => keepsStaged_modify ?_ ?_
  · intro events staged
    exact (staged.push (by simp [trieBuilt, stageTargets])).append
      (staged_addNodes _ _ _ _ _ staged_empty)
  refine keepsStaged_mk _ fun emission => keepsStaged_modify ?_ ?_
  · intro events staged
    exact staged.append (staged_resolving _ _ _)
  refine keepsStaged_mk _ fun _ => keepsStaged_mk _ fun _ => ?_
  intro events staged
  exact staged.append (staged_encoding _ _)

theorem target_of_mem_summary (point : HookPoint) :
    ∀ event ∈ summary point handlers settings, event.target = summaryTarget := by
  rw [summary]
  split
  next => simp
  next =>
    dsimp only
    split <;> simp [routineCompiled, routineListed, summaryTarget]

theorem target_of_mem_compiling {point : HookPoint} {event : Event}
    (member : event ∈ compiling point handlers settings) :
    event.target ∈ summaryTarget :: stageTargets := by
  rcases Array.mem_append.1 member with staged | summed
  · exact .tail _ (keepsStaged_stages handlers settings #[] staged_empty event staged)
  · exact target_of_mem_summary point event summed ▸ .head _

/-- Whether compiling succeeds is told by its log. -/
theorem exists_summary_iff (point : HookPoint) (handlers : List Handler)
    (settings : CompilerSettings) :
    (∃ event ∈ compiling point handlers settings, event.target = summaryTarget) ↔
      ∃ routine, compile point handlers settings = .ok routine := by
  have staged := keepsStaged_stages handlers settings #[] staged_empty
  rw [compiling, summary, compile]
  cases done : Compilation.ofHandlers handlers settings with
  | error error =>
    dsimp only
    rw [Array.append_empty]
    refine iff_of_false ?_ (by rintro ⟨_, ⟨⟩⟩)
    rintro ⟨event, member, summed⟩
    have known := staged event member
    rw [summed] at known
    exact absurd known (by decide)
  | ok compilation =>
    refine iff_of_true ⟨routineCompiled compilation point, ?_, rfl⟩ ⟨_, rfl⟩
    dsimp only
    split <;> simp

end Journal

end TrieDispatch
