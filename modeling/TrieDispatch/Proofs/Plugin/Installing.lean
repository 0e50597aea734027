import TrieDispatch.Proofs.Plugin.Edits

/-! # What an installation changes -/

namespace TrieDispatch.Plugin

def ClassDef.GoesBy (cls : ClassDef) (name : String) : Prop :=
  cls.name = name ∨ cls.fullName = name

/-- The method is not native and has just the name and the parameters of the hook point. -/
def Method.StandsFor (method : Method) (point : HookPoint) : Prop :=
  (∀ body, method.body ≠ .native body) ∧ method.name = point.name ∧ method.params = point.params

structure FirstAt {α : Type} (p : α → Prop) (elements : List α) (position : Nat) (element : α) :
    Prop where
  present : elements[position]? = some element
  holds : p element
  before : ∀ earlier < position, ∀ other, elements[earlier]? = some other → ¬p other

/-- The first class that goes by the name has its first method for the hook point at the site. -/
def Assembly.Resolves (assembly : Assembly) (name : String) (point : HookPoint) (site : Site) :
    Prop :=
  ∃ cls method, FirstAt (·.GoesBy name) assembly.classes site.cls cls ∧
    FirstAt (·.StandsFor point) cls.methods site.method method

/-- The assembly differs from the one before in the body of the method at the site. -/
structure Assembly.Replaced (before : Assembly) (site : Site) (routine : Routine)
    (after : Assembly) : Prop where
  name_eq : after.name = before.name
  classes_eq : after.classes.map (fun cls => (cls.qualifier, cls.name, cls.methods.length)) =
    before.classes.map fun cls => (cls.qualifier, cls.name, cls.methods.length)
  methodAt?_eq (place : Site) : after.methodAt? place = (before.methodAt? place).map fun method =>
    if place = site then { method with body := .compiled routine } else method
  handlers_eq : after.classes.map ClassDef.handlers = before.classes.map ClassDef.handlers

theorem ClassDef.isNamed_iff {cls : ClassDef} {name : String} :
    cls.isNamed name = true ↔ cls.GoesBy name := by
  simp [isNamed, GoesBy]

theorem Method.answers_iff {method : Method} {point : HookPoint} :
    method.answers point = true ↔ method.StandsFor point := by
  have native : method.body.isNative = false ↔ ∀ body, method.body ≠ .native body := by
    cases method.body <;> simp [MethodBody.isNative]
  simp [answers, StandsFor, native, and_assoc]

section

variable {α β : Type} {p : α → Bool} {elements others : List α} {position : Nat} {element : α}

theorem firstAt_iff :
    FirstAt (p · = true) elements position element ↔
      elements.findIdx? p = some position ∧ elements[position]? = some element := by
  rw [List.findIdx?_eq_some_iff_getElem]
  constructor
  · intro first
    have inside := (List.getElem?_eq_some_iff.1 first.present).1
    have here := (List.getElem?_eq_some_iff.1 first.present).2
    refine ⟨⟨inside, here ▸ first.holds, fun earlier less => ?_⟩, first.present⟩
    exact first.before earlier less _ (List.getElem?_eq_getElem (Nat.lt_trans less inside))
  · intro ⟨⟨inside, holds, before⟩, present⟩
    refine ⟨present, ?_, fun earlier less other there => ?_⟩
    · rwa [(List.getElem?_eq_some_iff.1 present).2] at holds
    · rw [← (List.getElem?_eq_some_iff.1 there).2]
      exact before earlier less

theorem find?_eq_some_iff_firstAt :
    elements.find? p = some element ↔
      ∃ position, FirstAt (p · = true) elements position element := by
  rw [List.find?_eq_bind_findIdx?_getElem?, Option.bind_eq_some_iff]
  exact exists_congr fun position => firstAt_iff.symm

theorem FirstAt.of_map_eq {p : α → Prop} {view : α → β}
    (first : FirstAt p elements position element) (same : elements.map view = others.map view)
    (seen : ∀ {a b}, view a = view b → p a → p b) :
    ∃ other, view other = view element ∧ FirstAt p others position other := by
  have alike (index : Nat) : elements[index]?.map view = others[index]?.map view := by
    rw [← List.getElem?_map, ← List.getElem?_map, same]
  have here := alike position
  rw [first.present, Option.map_some, eq_comm, Option.map_eq_some_iff] at here
  obtain ⟨other, present, looks⟩ := here
  refine ⟨other, looks, present, seen looks.symm first.holds, fun earlier less another there => ?_⟩
  intro holds
  have there' := alike earlier
  rw [there, Option.map_some, Option.map_eq_some_iff] at there'
  obtain ⟨original, found, looks'⟩ := there'
  exact first.before earlier less original found (seen looks'.symm holds)

theorem forall_not_of_map_eq {p : α → Prop} {view : α → β}
    (absent : ∀ element ∈ elements, ¬p element) (same : elements.map view = others.map view)
    (seen : ∀ {a b}, view a = view b → p a → p b) :
    ∀ other ∈ others, ¬p other := by
  intro other member holds
  have looks := List.mem_map_of_mem (f := view) member
  rw [← same, List.mem_map] at looks
  obtain ⟨element, present, alike⟩ := looks
  exact absent element present (seen alike.symm holds)

end

/-! ## What lookups see -/

def Method.outline (method : Method) : Bool × String × List ParamKind :=
  (method.body.isNative, method.name, method.params)

def ClassDef.outline (cls : ClassDef) : String × String × List (Bool × String × List ParamKind) :=
  (cls.qualifier, cls.name, cls.methods.map Method.outline)

theorem Method.StandsFor.of_outline {method other : Method} {point : HookPoint}
    (same : method.outline = other.outline) (h : method.StandsFor point) :
    other.StandsFor point := by
  simp only [outline, Prod.mk.injEq] at same
  rw [← answers_iff] at h ⊢
  rwa [answers, ← same.1, ← same.2.1, ← same.2.2]

theorem ClassDef.fullName_of_outline {cls other : ClassDef} (same : cls.outline = other.outline) :
    cls.fullName = other.fullName := by
  simp only [outline, Prod.mk.injEq] at same
  rw [fullName, fullName, same.1, same.2.1]

theorem ClassDef.GoesBy.of_outline {cls other : ClassDef} {name : String}
    (same : cls.outline = other.outline) (h : cls.GoesBy name) : other.GoesBy name := by
  have names := same
  simp only [outline, Prod.mk.injEq] at names
  rwa [GoesBy, ← names.2.1, ← fullName_of_outline same]

namespace Assembly

variable {assembly after : Assembly} {routine second : Routine} {name : String} {point : HookPoint}
  {site place : Site} {cls : ClassDef} {error : InstallError}

theorem class?_eq_some_iff :
    assembly.class? name = some cls ↔
      ∃ position, FirstAt (·.GoesBy name) assembly.classes position cls := by
  simp only [class?, find?_eq_some_iff_firstAt, ClassDef.isNamed_iff]

theorem class?_eq_none_iff :
    assembly.class? name = none ↔ ∀ cls ∈ assembly.classes, ¬cls.GoesBy name := by
  simp only [class?, List.find?_eq_none, ClassDef.isNamed_iff]

theorem slot?_eq_none_iff :
    cls.slot? point = none ↔ ∀ method ∈ cls.methods, ¬method.StandsFor point := by
  simp only [ClassDef.slot?, List.find?_eq_none, Method.answers_iff]

theorem site?_eq_some_iff :
    assembly.site? name point = some site ↔ assembly.Resolves name point site := by
  simp only [Resolves, ← ClassDef.isNamed_iff, ← Method.answers_iff, firstAt_iff]
  constructor
  · intro found
    obtain ⟨cls, placed, here, first⟩ := site?_eq_some found
    obtain ⟨inside, -⟩ := List.findIdx?_eq_some_iff_getElem.1 first
    exact ⟨cls, _, ⟨placed, here⟩, first, List.getElem?_eq_getElem inside⟩
  · intro ⟨cls, method, ⟨placed, here⟩, first, _⟩
    simp [site?, classAt?, placed, here, first]

theorem Resolves.install_eq (resolves : assembly.Resolves name point site) (routine : Routine) :
    assembly.install routine name point = .ok (assembly.installAt site routine) :=
  Assembly.install_eq routine (site?_eq_some_iff.2 resolves)

theorem resolves_of_install (installed : assembly.install routine name point = .ok after) :
    ∃ site, assembly.Resolves name point site ∧ after = assembly.installAt site routine := by
  simpa only [site?_eq_some_iff] using site?_of_install installed

theorem install_eq_error_iff :
    assembly.install routine name point = .error error ↔
      (error = .noClass name ∧ ∀ cls ∈ assembly.classes, ¬cls.GoesBy name) ∨
      ∃ position cls, FirstAt (·.GoesBy name) assembly.classes position cls ∧
        (∀ method ∈ cls.methods, ¬method.StandsFor point) ∧
        error = .noSlot cls.fullName point.signature := by
  rw [← class?_eq_none_iff, exists_comm]
  simp only [exists_and_right, ← class?_eq_some_iff, ← slot?_eq_none_iff]
  rw [install]
  cases assembly.class? name with
  | none => simp [eq_comm]
  | some cls => cases slot : cls.slot? point <;> simp [slot, eq_comm]

theorem exists_install_iff :
    (∃ after, assembly.install routine name point = .ok after) ↔
      ∃ site, assembly.Resolves name point site := by
  constructor
  · intro ⟨after, installed⟩
    obtain ⟨site, resolves, -⟩ := resolves_of_install installed
    exact ⟨site, resolves⟩
  · intro ⟨site, resolves⟩
    exact ⟨_, resolves.install_eq routine⟩

section

variable (same : assembly.classes.map ClassDef.outline = after.classes.map ClassDef.outline)

include same

theorem Resolves.of_outline (h : assembly.Resolves name point site) :
    after.Resolves name point site := by
  obtain ⟨cls, method, named, stands⟩ := h
  obtain ⟨cls', alike, named'⟩ := named.of_map_eq same ClassDef.GoesBy.of_outline
  simp only [ClassDef.outline, Prod.mk.injEq] at alike
  obtain ⟨method', -, stands'⟩ := stands.of_map_eq alike.2.2.symm Method.StandsFor.of_outline
  exact ⟨cls', method', named', stands'⟩

theorem install_error_of_outline (failed : assembly.install routine name point = .error error) :
    after.install second name point = .error error := by
  rw [install_eq_error_iff] at failed ⊢
  cases failed with
  | inl missing =>
    exact .inl ⟨missing.1, forall_not_of_map_eq missing.2 same ClassDef.GoesBy.of_outline⟩
  | inr found =>
    obtain ⟨position, cls, named, missing, rfl⟩ := found
    obtain ⟨cls', alike, named'⟩ := named.of_map_eq same ClassDef.GoesBy.of_outline
    have methods := alike
    simp only [ClassDef.outline, Prod.mk.injEq] at methods
    have missing' :=
      forall_not_of_map_eq missing methods.2.2.symm Method.StandsFor.of_outline
    exact .inr ⟨position, cls', named', missing', by rw [ClassDef.fullName_of_outline alike]⟩

end

/-! ## Replaced bodies -/

theorem Resolves.outline_eq (resolves : assembly.Resolves name point site) (routine : Routine) :
    (assembly.installAt site routine).classes.map ClassDef.outline =
      assembly.classes.map ClassDef.outline := by
  obtain ⟨cls, method, named, stands⟩ := resolves
  have unseen : (cls.methods.modify site.method (·.install routine)).map Method.outline =
      cls.methods.map Method.outline := by
    apply map_modify_of_eq
    intro other there
    obtain rfl := Option.some.inj (stands.present.symm.trans there)
    have answers := Method.answers_iff.2 stands.holds
    simp only [Method.answers, Bool.and_eq_true, Bool.not_eq_true'] at answers
    rw [Method.outline, Method.outline, answers.1.1]
    rfl
  apply map_modify_of_eq
  intro other there
  obtain rfl := Option.some.inj (named.present.symm.trans there)
  rw [ClassDef.outline, ClassDef.outline, unseen]

/-- Other installations go where they went before. -/
theorem Resolves.installAt_iff (resolves : assembly.Resolves name point site) (routine : Routine)
    {other : String} {otherPoint : HookPoint} :
    (assembly.installAt site routine).Resolves other otherPoint place ↔
      assembly.Resolves other otherPoint place :=
  ⟨.of_outline (resolves.outline_eq routine), .of_outline (resolves.outline_eq routine).symm⟩

theorem Resolves.replaced (resolves : assembly.Resolves name point site) (routine : Routine) :
    assembly.Replaced site routine (assembly.installAt site routine) where
  name_eq := rfl
  classes_eq := by
    apply map_modify_of_eq
    intro cls _
    simp only [List.length_modify]
  methodAt?_eq place := by
    rw [methodAt?_installAt]
    by_cases here : site = place
    · simp [here, Method.install]
    · simp [here, Ne.symm here]
  handlers_eq := by
    apply List.ext_getElem?
    intro position
    have kept := handlers_installAt routine (site?_eq_some_iff.2 resolves) position
    rw [List.getElem?_map, List.getElem?_map, kept]

theorem installAt_installAt (assembly : Assembly) (site : Site) (routine second : Routine) :
    (assembly.installAt site routine).installAt site second = assembly.installAt site second := by
  simp only [installAt, List.modify_modify_eq]
  congr 2
  funext cls
  simp only [Function.comp, List.modify_modify_eq]
  rfl

theorem installAt_comm (different : place ≠ site) (routine second : Routine) :
    (assembly.installAt site routine).installAt place second =
      (assembly.installAt place second).installAt site routine := by
  by_cases classes : place.cls = site.cls
  · have methods : site.method ≠ place.method := by
      intro methods
      cases place
      cases site
      simp_all
    simp only [installAt, classes, List.modify_modify_eq]
    congr 2
    funext cls
    simp only [Function.comp]
    rw [List.modify_modify_ne _ _ _ methods]
  · simp only [installAt]
    rw [List.modify_modify_ne _ _ _ (Ne.symm classes)]

end Assembly

/-- An installation fails just if no class goes by the name, or the first class that does has no
method that stands for the hook point. Otherwise it changes the body of the first such method and
nothing else, and any other installation goes where it went before. -/
theorem install_outcome (assembly : Assembly) (routine : Routine) (name : String)
    (point : HookPoint) :
    (∀ error, assembly.install routine name point = .error error ↔
      (error = .noClass name ∧ ∀ cls ∈ assembly.classes, ¬cls.GoesBy name) ∨
      ∃ position cls, FirstAt (·.GoesBy name) assembly.classes position cls ∧
        (∀ method ∈ cls.methods, ¬method.StandsFor point) ∧
        error = .noSlot cls.fullName point.signature) ∧
    ((∃ after, assembly.install routine name point = .ok after) ↔
      ∃ site, assembly.Resolves name point site) ∧
    ∀ after, assembly.install routine name point = .ok after →
      ∃ site, assembly.Resolves name point site ∧ assembly.Replaced site routine after ∧
        (∀ other otherPoint place,
          after.Resolves other otherPoint place ↔ assembly.Resolves other otherPoint place) ∧
        (∀ second other otherPoint error, after.install second other otherPoint = .error error ↔
          assembly.install second other otherPoint = .error error) ∧
        (∀ second other otherPoint, assembly.Resolves other otherPoint site →
          after.install second other otherPoint = assembly.install second other otherPoint) ∧
        ∀ second other otherPoint place, assembly.Resolves other otherPoint place → place ≠ site →
          ∃ instead both, assembly.install second other otherPoint = .ok instead ∧
            after.install second other otherPoint = .ok both ∧
            instead.install routine name point = .ok both := by
  refine ⟨fun error => Assembly.install_eq_error_iff, Assembly.exists_install_iff, ?_⟩
  intro after installed
  obtain ⟨site, resolves, rfl⟩ := Assembly.resolves_of_install installed
  refine ⟨site, resolves, resolves.replaced routine, ?_, ?_, ?_, ?_⟩
  · intro other otherPoint place
    exact resolves.installAt_iff routine
  · intro second other otherPoint error
    have same := resolves.outline_eq routine
    exact ⟨Assembly.install_error_of_outline same, Assembly.install_error_of_outline same.symm⟩
  · intro second other otherPoint there
    have there' := (resolves.installAt_iff routine).2 there
    rw [there.install_eq, there'.install_eq, Assembly.installAt_installAt]
  · intro second other otherPoint place there different
    have there' := (resolves.installAt_iff routine).2 there
    have resolves' := (there.installAt_iff second).2 resolves
    refine ⟨_, _, there.install_eq second, there'.install_eq second, ?_⟩
    rw [resolves'.install_eq, Assembly.installAt_comm different]

end TrieDispatch.Plugin
