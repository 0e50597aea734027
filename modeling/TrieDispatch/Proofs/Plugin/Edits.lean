import TrieDispatch.Plugin.Instance

/-! # Editing assemblies -/

namespace TrieDispatch.Plugin

/-- The methods that a plugin declares, with any visibility. -/
inductive Method.Declared : Method → Prop
  | handler (handler : Handler) (visibility : Visibility) (isStatic : Bool) :
      Declared { Method.ofHandler handler with visibility, isStatic }
  | hookPoint (point : HookPoint) (visibility : Visibility) (isStatic : Bool) :
      Declared { Method.ofHookPoint point with visibility, isStatic }

/-- The position of a class in its assembly and of a method in this class. -/
structure Site where
  cls : Nat
  method : Nat
  deriving DecidableEq

namespace Assembly

def classAt? (assembly : Assembly) (name : String) : Option Nat :=
  assembly.classes.findIdx? fun cls => cls.isNamed name

/-- Where the first class that goes by the name has its first method for the hook point. -/
def site? (assembly : Assembly) (name : String) (point : HookPoint) : Option Site := do
  let position ← assembly.classAt? name
  let cls ← assembly.classes[position]?
  let method ← cls.methods.findIdx? fun method => method.answers point
  return ⟨position, method⟩

def methodAt? (assembly : Assembly) (site : Site) : Option Method := do
  let cls ← assembly.classes[site.cls]?
  cls.methods[site.method]?

end Assembly

inductive Edit where
  | addClass (cls : ClassDef)
  | build (name : String) (point : HookPoint) (settings : CompilerSettings)
  | install (routine : Routine) (name : String) (point : HookPoint)

/-- Classes are added as declared, and a routine to install has been compiled from some handlers,
not necessarily those of the class it goes into. -/
inductive Edit.Allowed : Edit → Prop
  | addClass {cls : ClassDef} (declared : ∀ method ∈ cls.methods, method.Declared) :
      Allowed (.addClass cls)
  | build (name : String) (point : HookPoint) (settings : CompilerSettings) :
      Allowed (.build name point settings)
  | install {routine : Routine} {origin : HookPoint} {handlers : List Handler}
      {settings : CompilerSettings} (compiled : compile origin handlers settings = .ok routine)
      (name : String) (point : HookPoint) : Allowed (.install routine name point)

structure Installation where
  site : Site
  routine : Routine
  /-- Whether the routine was compiled from the handlers of the class. -/
  built : Bool

namespace Assembly

def edited (assembly : Assembly) : Edit → Except BuildError Assembly
  | .addClass cls => .ok (assembly.addClass cls)
  | .build name point settings => assembly.build name point settings
  | .install routine name point => (assembly.install routine name point).mapError .install

def installation? (assembly : Assembly) : Edit → Option Installation
  | .addClass _ => none
  | .build name point settings => do
    let cls ← assembly.class? name
    let routine ← (compile point cls.handlers settings).toOption
    let site ← assembly.site? name point
    return ⟨site, routine, true⟩
  | .install routine name point => do
    let site ← assembly.site? name point
    return ⟨site, routine, false⟩

end Assembly

def lastAt? (site : Site) (installations : List Installation) : Option Installation :=
  (installations.filter fun installation => installation.site = site).getLast?

structure History where
  assembly : Assembly
  installations : List Installation

namespace History

def edit (history : History) (edit : Edit) : History :=
  match history.assembly.edited edit with
  | .error _ => history
  | .ok assembly =>
    ⟨assembly, history.installations ++ (history.assembly.installation? edit).toList⟩

def ofEdits (title : String) (edits : List Edit) : History :=
  edits.foldl edit ⟨.empty title, []⟩

end History

def MethodBody.routine? : MethodBody → Option Routine
  | compiled routine => some routine
  | _ => none

theorem ClassDef.dispatch_eq (cls : ClassDef) (point : HookPoint) (settings : MachineSettings) :
    cls.dispatch point settings =
      ((cls.slot? point).bind (·.body.routine?)).elim (.lookup (.ofList cls.handlers))
        (.compiled · settings) := by
  rw [dispatch]
  cases cls.slot? point with
  | none => rfl
  | some method =>
    rw [Option.map_some, Option.bind_some]
    cases method.body <;> rfl

theorem Method.Declared.routine?_eq {method : Method} (h : method.Declared) :
    method.body.routine? = none := by
  cases h <;> rfl

theorem Method.handler?_of_not_native (method : Method) (h : method.body.isNative = false) :
    method.handler? = none := by
  rw [handler?]
  split
  · next same =>
    rw [same] at h
    cases h
  · rfl

/-! ## The method at a site -/

section

variable {α β : Type} {f g : α → α} {elements : List α} {index : Nat}

theorem modify_congr (same : ∀ element, elements[index]? = some element → f element = g element) :
    elements.modify index f = elements.modify index g := by
  apply List.ext_getElem?
  intro other
  rw [List.getElem?_modify, List.getElem?_modify]
  cases found : elements[other]? with
  | none => rfl
  | some element =>
    by_cases here : index = other
    · subst here
      simp [same element found]
    · simp [here]

theorem map_modify_of_eq {view : α → β}
    (same : ∀ element, elements[index]? = some element → view (f element) = view element) :
    (elements.modify index f).map view = elements.map view := by
  apply List.ext_getElem?
  intro other
  rw [List.getElem?_map, List.getElem?_map, List.getElem?_modify]
  cases found : elements[other]? with
  | none => rfl
  | some element =>
    by_cases here : index = other
    · subst here
      simp [same element found]
    · simp [here]

theorem modifyFirst_eq_modify {p : α → Bool} (first : elements.findIdx? p = some index) :
    modifyFirst p f elements = elements.modify index f := by
  induction elements generalizing index with
  | nil => cases first
  | cons element rest ih =>
    rw [List.findIdx?_cons] at first
    rw [modifyFirst]
    split at first
    · next holds =>
      obtain rfl := Option.some.inj first
      rw [if_pos holds, List.modify_zero_cons]
    · next fails =>
      obtain ⟨earlier, found, rfl⟩ := Option.map_eq_some_iff.1 first
      rw [if_neg fails, List.modify_succ_cons, ih found]

end

namespace Assembly

variable {assembly : Assembly} {name : String} {point : HookPoint} {site : Site}

theorem class?_eq (assembly : Assembly) (name : String) :
    assembly.class? name = (assembly.classAt? name).bind (assembly.classes[·]?) :=
  List.find?_eq_bind_findIdx?_getElem?

theorem slot?_eq {cls : ClassDef} (known : assembly.class? name = some cls) (point : HookPoint) :
    cls.slot? point = (assembly.site? name point).bind assembly.methodAt? := by
  rw [class?_eq] at known
  obtain ⟨position, placed, found⟩ := Option.bind_eq_some_iff.1 known
  rw [ClassDef.slot?, List.find?_eq_bind_findIdx?_getElem?]
  simp only [site?, placed, found, methodAt?, Option.bind_eq_bind, Option.bind_some,
    Option.bind_assoc, Option.pure_def]

theorem site?_eq_some (h : assembly.site? name point = some site) :
    ∃ cls, assembly.classAt? name = some site.cls ∧ assembly.classes[site.cls]? = some cls ∧
      cls.methods.findIdx? (·.answers point) = some site.method := by
  obtain ⟨position, placed, h⟩ := Option.bind_eq_some_iff.1 h
  obtain ⟨cls, found, h⟩ := Option.bind_eq_some_iff.1 h
  obtain ⟨method, first, h⟩ := Option.bind_eq_some_iff.1 h
  obtain rfl := Option.some.inj h
  exact ⟨cls, placed, found, first⟩

/-- Adding a class keeps what a name stands for. -/
theorem class?_addClass {cls : ClassDef} (known : assembly.class? name = some cls)
    (added : ClassDef) :
    (assembly.addClass added).class? name = some cls ∧
      (assembly.addClass added).classAt? name = assembly.classAt? name := by
  have placed : (assembly.classAt? name).isSome = true := by
    rw [class?_eq] at known
    obtain ⟨position, placed, -⟩ := Option.bind_eq_some_iff.1 known
    rw [placed, Option.isSome_some]
  rw [class?] at known
  rw [class?, classAt?, addClass, List.find?_append, known, List.findIdx?_append, ← classAt?]
  exact ⟨Option.some_or, Option.or_of_isSome placed⟩

theorem answers_of_site? (h : assembly.site? name point = some site) :
    ∃ method, assembly.methodAt? site = some method ∧ method.answers point = true := by
  obtain ⟨cls, -, found, first⟩ := site?_eq_some h
  obtain ⟨inside, answers, -⟩ := List.findIdx?_eq_some_iff_getElem.1 first
  refine ⟨cls.methods[site.method], ?_, answers⟩
  rw [methodAt?, found]
  exact List.getElem?_eq_getElem inside

def installAt (assembly : Assembly) (site : Site) (routine : Routine) : Assembly :=
  { assembly with
    classes := assembly.classes.modify site.cls fun cls =>
      { cls with methods := cls.methods.modify site.method (·.install routine) } }

theorem install_eq (routine : Routine) (h : assembly.site? name point = some site) :
    assembly.install routine name point = .ok (assembly.installAt site routine) := by
  obtain ⟨cls, placed, found, first⟩ := site?_eq_some h
  have known : assembly.class? name = some cls := by
    rw [class?_eq, placed]
    exact found
  obtain ⟨method, present, -⟩ := answers_of_site? h
  have slot : cls.slot? point = some method := by
    rw [slot?_eq known, h]
    exact present
  simp only [install, known, slot, installAt]
  congr 2
  rw [modifyFirst_eq_modify placed]
  apply modify_congr
  intro other there
  obtain rfl := Option.some.inj (found.symm.trans there)
  rw [ClassDef.install, modifyFirst_eq_modify first]

theorem site?_of_install {routine : Routine} {after : Assembly}
    (h : assembly.install routine name point = .ok after) :
    ∃ site, assembly.site? name point = some site ∧ after = assembly.installAt site routine := by
  cases place : assembly.site? name point with
  | some site =>
    rw [install_eq routine place] at h
    exact ⟨site, rfl, (Except.ok.inj h).symm⟩
  | none =>
    rw [install] at h
    split at h
    · cases h
    · next cls known =>
      have missing : cls.slot? point = none := by
        rw [slot?_eq known, place, Option.bind_none]
      rw [missing] at h
      cases h

theorem methodAt?_installAt (routine : Routine) (site other : Site) :
    (assembly.installAt site routine).methodAt? other =
      if site = other then (assembly.methodAt? other).map (·.install routine)
      else assembly.methodAt? other := by
  simp only [methodAt?, installAt, List.getElem?_modify, Option.bind_eq_bind]
  cases found : assembly.classes[other.cls]? with
  | none => simp
  | some cls =>
    by_cases class_same : site.cls = other.cls
    · by_cases method_same : site.method = other.method
      · have same : site = other := by
          cases site
          cases other
          simp_all
        simp [same]
      · have differs : site ≠ other := fun same => method_same (same ▸ rfl)
        simp [class_same, differs, method_same]
    · have differs : site ≠ other := fun same => class_same (same ▸ rfl)
      simp [class_same, differs]

theorem handlers_installAt (routine : Routine) (h : assembly.site? name point = some site)
    (position : Nat) :
    (assembly.installAt site routine).classes[position]?.map ClassDef.handlers =
      assembly.classes[position]?.map ClassDef.handlers := by
  obtain ⟨cls, -, found, first⟩ := site?_eq_some h
  obtain ⟨method, present, answers⟩ := answers_of_site? h
  rw [← List.getElem?_map, ← List.getElem?_map]
  congr 1
  apply map_modify_of_eq
  intro other there
  obtain rfl := Option.some.inj (found.symm.trans there)
  rw [methodAt?, found] at present
  have lookedUp : method.body.isNative = false := by
    simp only [Method.answers, Bool.and_eq_true, Bool.not_eq_true'] at answers
    exact answers.1.1
  have unseen : (cls.methods.modify site.method (·.install routine)).map Method.handler? =
      cls.methods.map Method.handler? := by
    apply map_modify_of_eq
    intro other there
    obtain rfl := Option.some.inj (present.symm.trans there)
    rw [method.handler?_of_not_native lookedUp]
    rfl
  have kept := congrArg (List.filterMap id) unseen
  rwa [List.filterMap_map, List.filterMap_map] at kept

end Assembly

end TrieDispatch.Plugin
