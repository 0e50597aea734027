import TrieDispatch.Journal.Loading
import TrieDispatch.Proofs.Cutoffs
import TrieDispatch.Proofs.Equivalence
import TrieDispatch.Proofs.Journal.Compiling

/-! # The logs of installations, loads and calls -/

namespace TrieDispatch.Journal

open Plugin

variable {assembly : Assembly} {name : String} {point : HookPoint}

def installTarget : String := "hookdispatch::patcher"

theorem exists_installed_iff {routine : Routine} :
    (∃ event ∈ installing assembly routine name point, event.target = installTarget) ↔
      ∃ installed, assembly.install routine name point = .ok installed := by
  rw [installing, Assembly.install]
  cases assembly.class? name with
  | none => simp
  | some cls =>
    dsimp only
    cases cls.slot? point with
    | none => simp
    | some slot => simp [routineInstalled, installTarget]

/-- Whether building succeeds is told by its log. -/
theorem exists_built_iff {settings : CompilerSettings} :
    (∃ event ∈ building assembly name point settings, event.target = installTarget) ↔
      ∃ built, assembly.build name point settings = .ok built := by
  rw [building, Assembly.build]
  cases assembly.class? name with
  | none => simp
  | some cls =>
    -- Compiling logs to other targets, so only the installation shows.
    have compiled : ∀ event ∈ compiling point cls.handlers settings,
        event.target ≠ installTarget := by
      intro event member same
      have known := target_of_mem_compiling member
      rw [same] at known
      exact absurd known (by decide)
    have later (events : Array Event) :
        (∃ event ∈ compiling point cls.handlers settings ++ events,
            event.target = installTarget) ↔ ∃ event ∈ events, event.target = installTarget := by
      constructor
      · rintro ⟨event, member, same⟩
        rcases Array.mem_append.1 member with early | late
        · exact absurd same (compiled event early)
        · exact ⟨event, late, same⟩
      · rintro ⟨event, member, same⟩
        exact ⟨event, Array.mem_append_right _ member, same⟩
    dsimp only
    rw [later]
    cases compile point cls.handlers settings with
    | error error => simp
    | ok routine =>
      refine exists_installed_iff.trans ?_
      dsimp only
      cases assembly.install routine name point with
      | error error => simp [Except.mapError]
      | ok installed => simp [Except.mapError]

theorem loading_eq_empty_iff {settings : MachineSettings} :
    loading assembly name point settings = #[] ↔
      ∃ error, assembly.load name point settings = .error error := by
  rw [loading]
  cases assembly.load name point settings <;> simp

variable {key : String} {out : Option Value} {args : List Value}

/-- A lookup is silent just when it finds a handler. -/
theorem calling_lookup_eq_empty_iff {directory : Directory} (coherent : directory.Coherent) :
    calling (.lookup directory) key out args = #[] ↔
      ((Dispatch.lookup directory).call key out args).found = .ok true := by
  have known := coherent.contains_iff key
  rw [calling, Dispatch.call]
  by_cases member : key ∈ directory.handlers.toList.map Handler.name
  · obtain ⟨entry, located⟩ := Option.isSome_iff_exists.1 (coherent.exists_entry member)
    rw [if_pos (known.2 member), Directory.call_of_entry located]
    simp
  · rw [if_neg (mt known.1 member), coherent.call_of_not_mem member]
    simp

/-- Apart from its instructions a compiled call shows its handler calls and its end. -/
theorem withoutSteps_calling (routine : Routine) (settings : MachineSettings) :
    let dispatch := Dispatch.compiled routine settings
    withoutSteps (calling dispatch key out args) =
      (dispatch.call key out args).calls.map handlerCalled ++
        ending (Machine.run routine settings key out args) :=
  withoutSteps_running routine settings key out args

end TrieDispatch.Journal
