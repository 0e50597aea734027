import Mathlib.Data.List.Find
import TrieDispatch.Proofs.Plugin.Edits

/-! # Classes by their full names -/

namespace TrieDispatch.Plugin

/-- One of the earlier classes has the full name of the class for its simple name. -/
def ClassDef.Hidden (cls : ClassDef) (earlier : List ClassDef) : Prop :=
  ∃ other ∈ earlier, other.name = cls.fullName

theorem ClassDef.isNamed_fullName (cls : ClassDef) : cls.isNamed cls.fullName = true := by
  simp [isNamed]

theorem modifyFirst_append_cons {α : Type} {p : α → Bool} {before : List α} {element : α}
    (fails : ∀ other ∈ before, p other = false) (holds : p element = true) (f : α → α)
    (after : List α) :
    modifyFirst p f (before ++ element :: after) = before ++ f element :: after := by
  induction before with
  | nil => simp [modifyFirst, holds]
  | cons other before ih =>
    simp only [List.forall_mem_cons] at fails
    simp [modifyFirst, fails.1, ih fails.2]

namespace Assembly

variable {assembly : Assembly} {before after : List ClassDef} {cls : ClassDef} {point : HookPoint}

section

variable (distinct : (assembly.classes.map ClassDef.fullName).Nodup)
  (split : assembly.classes = before ++ cls :: after)

include distinct split

theorem fullName_ne_of_mem {other : ClassDef} (member : other ∈ before) :
    other.fullName ≠ cls.fullName := by
  intro same
  rw [split, List.map_append, List.map_cons, List.nodup_append] at distinct
  exact distinct.2.2 _ (List.mem_map_of_mem member) _ List.mem_cons_self same

theorem class?_fullName :
    assembly.class? cls.fullName =
      some ((before.find? fun other => other.name == cls.fullName).getD cls) := by
  have earlier : before.find? (fun other => other.isNamed cls.fullName) =
      before.find? fun other => other.name == cls.fullName := by
    apply List.find?_congr
    intro other member
    simp [ClassDef.isNamed, fullName_ne_of_mem distinct split member]
  rw [class?, split, List.find?_append, earlier, List.find?_cons, cls.isNamed_fullName]
  cases before.find? fun other => other.name == cls.fullName <;> rfl

theorem class?_fullName_iff : assembly.class? cls.fullName = some cls ↔ ¬cls.Hidden before := by
  rw [class?_fullName distinct split, Option.some.injEq]
  cases found : before.find? fun other => other.name == cls.fullName with
  | none =>
    have shown : ¬cls.Hidden before := by simpa [ClassDef.Hidden] using found
    simp [shown]
  | some other =>
    have member := List.mem_of_find?_eq_some found
    have named : other.name = cls.fullName := by simpa using List.find?_some found
    have hidden : cls.Hidden before := ⟨other, member, named⟩
    have differs : other ≠ cls := by
      intro same
      exact fullName_ne_of_mem distinct split member (congrArg ClassDef.fullName same)
    simp [hidden, differs]

variable (shown : ¬cls.Hidden before)

include shown

theorem install_fullName (routine : Routine) (point : HookPoint) :
    assembly.install routine cls.fullName point =
      if (cls.slot? point).isSome then
        .ok { assembly with classes := before ++ cls.install point routine :: after }
      else .error (.noSlot cls.fullName point.signature) := by
  have fails (other : ClassDef) (member : other ∈ before) :
      other.isNamed cls.fullName = false := by
    have unnamed : other.name ≠ cls.fullName := fun named => shown ⟨other, member, named⟩
    simp [ClassDef.isNamed, fullName_ne_of_mem distinct split member, unnamed]
  have known := (class?_fullName_iff distinct split).2 shown
  cases slot : cls.slot? point with
  | none => simp [install, known, slot]
  | some method =>
    have changed :=
      modifyFirst_append_cons fails cls.isNamed_fullName (·.install point routine) after
    simp [install, known, slot, split, changed]

theorem build_fullName {settings : CompilerSettings} {routine : Routine}
    (compiled : compile point cls.handlers settings = .ok routine) :
    assembly.build cls.fullName point settings =
      if (cls.slot? point).isSome then
        .ok { assembly with classes := before ++ cls.install point routine :: after }
      else .error (.install (.noSlot cls.fullName point.signature)) := by
  have known := (class?_fullName_iff distinct split).2 shown
  have installed := install_fullName distinct split shown routine point
  cases slot : (cls.slot? point).isSome <;>
    simp [build, known, compiled, installed, slot, Except.mapError]

end

end Assembly

/-- Among classes with distinct full names, the full name of a class stands for the first earlier
class that has it as its simple name, and for the class itself if there is none. In that case
building by the full name compiles the handlers of the class and installs the routine into it and
nowhere else, and loading by the full name that a loaded instance reports loads the class again. -/
theorem full_name_of_class {assembly : Assembly} {before after : List ClassDef} {cls : ClassDef}
    (distinct : (assembly.classes.map ClassDef.fullName).Nodup)
    (split : assembly.classes = before ++ cls :: after) :
    assembly.class? cls.fullName =
      some ((before.find? fun other => other.name == cls.fullName).getD cls) ∧
    (assembly.class? cls.fullName = some cls ↔ ¬cls.Hidden before) ∧
    (¬cls.Hidden before →
      (∀ point settings,
        (∀ error, compile point cls.handlers settings = .error error →
          assembly.build cls.fullName point settings = .error (.compile error)) ∧
        ∀ routine, compile point cls.handlers settings = .ok routine →
          assembly.build cls.fullName point settings =
            if (cls.slot? point).isSome then
              .ok { assembly with classes := before ++ cls.install point routine :: after }
            else .error (.install (.noSlot cls.fullName point.signature))) ∧
      ∀ name point settings plugin, assembly.class? name = some cls →
        assembly.load name point settings = .ok plugin →
          plugin.className = cls.fullName ∧
          assembly.class? plugin.className = some cls ∧
          assembly.load plugin.className point settings = .ok plugin) := by
  refine ⟨Assembly.class?_fullName distinct split, Assembly.class?_fullName_iff distinct split, ?_⟩
  intro shown
  have known := (Assembly.class?_fullName_iff distinct split).2 shown
  constructor
  · intro point settings
    constructor
    · intro error failed
      simp [Assembly.build, known, failed]
    · intro routine compiled
      exact Assembly.build_fullName distinct split shown compiled
  · intro name point settings plugin called loaded
    simp only [Assembly.load, called, Except.ok.injEq] at loaded
    subst loaded
    exact ⟨rfl, known, by simp [Assembly.load, known]⟩

private def outer : ClassDef := ⟨"Y", "X.B", [.ofHookPoint .standard]⟩

private def inner : ClassDef := ⟨"X", "B", [.ofHookPoint .standard]⟩

private def bare : ClassDef := ⟨"", "B", [.ofHookPoint .standard]⟩

theorem full_name_of_class_inner :
    ([⟨"", "A", []⟩, inner, outer].map ClassDef.fullName).Nodup ∧ ¬inner.Hidden [⟨"", "A", []⟩] ∧
      ∃ plugin,
        (Assembly.mk "m" [⟨"", "A", []⟩, inner, outer]).load "B" .standard default = .ok plugin ∧
        plugin.className = "X.B" ∧
        (Assembly.mk "m" [⟨"", "A", []⟩, inner, outer]).load "X.B" .standard default =
          .ok plugin := by
  have distinct : ([⟨"", "A", []⟩, inner, outer].map ClassDef.fullName).Nodup := by decide
  have shown : ¬inner.Hidden [⟨"", "A", []⟩] := by
    simp only [ClassDef.Hidden, List.mem_singleton, exists_eq_left]
    decide
  have split : (Assembly.mk "m" [⟨"", "A", []⟩, inner, outer]).classes =
      [⟨"", "A", []⟩] ++ inner :: [outer] := rfl
  obtain ⟨-, -, reached⟩ := full_name_of_class distinct split
  obtain ⟨name, -, again⟩ := (reached shown).2 "B" .standard default _ rfl rfl
  exact ⟨distinct, shown, _, rfl, name, name ▸ again⟩

/-- The last class is not found by its full name, and the full name that the second one reports
leads to the first one. -/
theorem full_name_hidden :
    ([outer, inner, bare].map ClassDef.fullName).Nodup ∧
      (Assembly.mk "m" [outer, inner, bare]).class? bare.fullName = some inner ∧ inner ≠ bare ∧
      ((Assembly.mk "m" [outer, inner, bare]).load "B" .standard default).map
        Instance.className = .ok "X.B" ∧
      ((Assembly.mk "m" [outer, inner, bare]).load "X.B" .standard default).map
        Instance.className = .ok "Y.X.B" := by
  refine ⟨by decide, rfl, ?_, rfl, rfl⟩
  intro same
  have qualifiers := congrArg ClassDef.qualifier same
  simp [inner, bare] at qualifiers

end TrieDispatch.Plugin
