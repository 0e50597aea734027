import TrieDispatch.Proofs.Equivalence
import TrieDispatch.Proofs.Plugin.Edits

/-! # Loading edited assemblies -/

namespace TrieDispatch.Plugin

/-- The installation put a compiled routine in place; a built one has the handlers that the class
has. -/
structure Installation.Fits (installation : Installation) (assembly : Assembly) : Prop where
  inside : installation.site.cls < assembly.classes.length
  compiled : ∃ point handlers settings, compile point handlers settings = .ok installation.routine
  own : installation.built = true →
    assembly.classes[installation.site.cls]?.map ClassDef.handlers =
      some installation.routine.handlers.toList

/-- At every site there is the routine that was installed last, and otherwise no routine. -/
structure History.Recorded (history : History) : Prop where
  fits : ∀ installation ∈ history.installations, installation.Fits history.assembly
  routine?_eq : ∀ {site method}, history.assembly.methodAt? site = some method →
    method.body.routine? = (lastAt? site history.installations).map Installation.routine

theorem lastAt?_concat (site : Site) (installations : List Installation)
    (installation : Installation) :
    lastAt? site (installations ++ [installation]) =
      if installation.site = site then some installation else lastAt? site installations := by
  rw [lastAt?, List.filter_append, List.filter_singleton]
  by_cases here : installation.site = site
  · simp [here]
  · simp [here, lastAt?]

theorem exists_lastAt?_iff {site : Option Site} {installations : List Installation} :
    (∃ latest, site.bind (lastAt? · installations) = some latest) ↔
      ∃ installation ∈ installations, site = some installation.site := by
  cases site with
  | none => simp
  | some site =>
    rw [← Option.isSome_iff_exists, Option.bind_some, lastAt?, List.getLast?_isSome]
    simp [List.filter_eq_nil_iff, eq_comm (a := site)]

theorem mem_of_lastAt? {site : Site} {installations : List Installation} {latest : Installation}
    (h : lastAt? site installations = some latest) :
    latest ∈ installations ∧ latest.site = site := by
  simpa using List.mem_filter.1 (List.mem_of_getLast? h)

theorem handlers_of_compile {point : HookPoint} {handlers : List Handler}
    {settings : CompilerSettings} {routine : Routine}
    (compiled : compile point handlers settings = .ok routine) :
    routine.handlers.toList = handlers := by
  obtain ⟨trie, emission, depth, encoding, -, -, rfl⟩ := stages_of_compile compiled
  rfl

theorem call_of_compile {point : HookPoint} {handlers : List Handler}
    {settings : CompilerSettings} {routine : Routine}
    (compiled : compile point handlers settings = .ok routine) (machine : MachineSettings)
    (enough : routine.offsets.size ≤ machine.maxSteps) (key : String) (out : Option Value)
    (args : List Value) :
    routine.call machine key out args = (Directory.ofList handlers).call key args := by
  obtain ⟨trie, emission, depth, encoding, stages, encoded, rfl⟩ := stages_of_compile compiled
  have answered := stages.call_eq out encoded point machine key args enough
  rwa [stages.handlers_eq] at answered

theorem mapError_eq_ok_iff {ε δ α : Type} {x : Except ε α} {f : ε → δ} {a : α} :
    x.mapError f = .ok a ↔ x = .ok a := by
  cases x <;> simp [Except.mapError]

namespace Assembly

variable {assembly : Assembly} {name : String} {point : HookPoint} {site : Site}

theorem exists_routine_of_build {settings : CompilerSettings} {after : Assembly}
    (h : assembly.build name point settings = .ok after) :
    ∃ cls routine, assembly.class? name = some cls ∧
      compile point cls.handlers settings = .ok routine ∧
      assembly.install routine name point = .ok after := by
  rw [build] at h
  split at h
  · cases h
  · next cls known =>
    split at h
    · cases h
    · next routine compiled => exact ⟨cls, routine, known, compiled, mapError_eq_ok_iff.1 h⟩

theorem class?_of_site? {cls : ClassDef} (h : assembly.site? name point = some site)
    (known : assembly.class? name = some cls) : assembly.classes[site.cls]? = some cls := by
  obtain ⟨other, placed, found, -⟩ := site?_eq_some h
  rwa [class?_eq, placed, Option.bind_some] at known

theorem inside_of_site? (h : assembly.site? name point = some site) :
    site.cls < assembly.classes.length := by
  obtain ⟨cls, -, found, -⟩ := site?_eq_some h
  exact (List.getElem?_eq_some_iff.1 found).1

/-- An edit adds a class, or it puts a compiled routine where a hook point stands. -/
theorem edited_cases {edit : Edit} {after : Assembly} (allowed : edit.Allowed)
    (h : assembly.edited edit = .ok after) :
    (∃ cls, (∀ method ∈ cls.methods, method.Declared) ∧ after = assembly.addClass cls ∧
      assembly.installation? edit = none) ∨
    ∃ name point installation, assembly.site? name point = some installation.site ∧
      after = assembly.installAt installation.site installation.routine ∧
      assembly.installation? edit = some installation ∧ installation.Fits assembly := by
  cases allowed with
  | addClass declared => exact .inl ⟨_, declared, (Except.ok.inj h).symm, rfl⟩
  | @install routine origin handlers settings compiled name point =>
    obtain ⟨site, place, rfl⟩ := site?_of_install (mapError_eq_ok_iff.1 h)
    refine .inr ⟨name, point, ⟨site, routine, false⟩, place, rfl, ?_,
      inside_of_site? place, ⟨_, _, _, compiled⟩, nofun⟩
    simp [installation?, place]
  | build name point settings =>
    obtain ⟨cls, routine, known, compiled, installed⟩ := exists_routine_of_build h
    obtain ⟨site, place, rfl⟩ := site?_of_install installed
    refine .inr ⟨name, point, ⟨site, routine, true⟩, place, rfl, ?_,
      inside_of_site? place, ⟨_, _, _, compiled⟩, fun _ => ?_⟩
    · simp [installation?, known, compiled, place, Except.toOption]
    · rw [class?_of_site? place known, Option.map_some, handlers_of_compile compiled]

theorem routine?_of_addClass {cls : ClassDef} (declared : ∀ method ∈ cls.methods, method.Declared)
    {method : Method} (h : (assembly.addClass cls).methodAt? site = some method) :
    assembly.methodAt? site = some method ∨
      assembly.classes.length ≤ site.cls ∧ method.body.routine? = none := by
  by_cases inside : site.cls < assembly.classes.length
  · left
    rwa [methodAt?, addClass, List.getElem?_append_left inside] at h
  · right
    have outside := Nat.le_of_not_lt inside
    obtain ⟨other, found, present⟩ := Option.bind_eq_some_iff.1 h
    rw [addClass, List.getElem?_append_right outside] at found
    obtain rfl := List.mem_singleton.1 (List.mem_of_getElem? found)
    exact ⟨outside, (declared method (List.mem_of_getElem? present)).routine?_eq⟩

end Assembly

namespace Installation

variable {assembly : Assembly} {installation : Installation}

theorem Fits.addClass (h : installation.Fits assembly) (cls : ClassDef) :
    installation.Fits (assembly.addClass cls) := by
  refine ⟨?_, h.compiled, fun built => ?_⟩
  · rw [Assembly.addClass, List.length_append]
    exact Nat.lt_add_right _ h.inside
  · rw [Assembly.addClass, List.getElem?_append_left h.inside]
    exact h.own built

theorem Fits.installAt (h : installation.Fits assembly) {name : String} {point : HookPoint}
    {site : Site} (place : assembly.site? name point = some site) (routine : Routine) :
    installation.Fits (assembly.installAt site routine) := by
  refine ⟨?_, h.compiled, fun built => ?_⟩
  · rw [Assembly.installAt, List.length_modify]
    exact h.inside
  · rw [Assembly.handlers_installAt routine place]
    exact h.own built

end Installation

namespace History

theorem recorded_empty (title : String) : Recorded ⟨.empty title, []⟩ := ⟨nofun, nofun⟩

theorem Recorded.addClass {history : History} (h : history.Recorded) {cls : ClassDef}
    (declared : ∀ method ∈ cls.methods, method.Declared) :
    Recorded ⟨history.assembly.addClass cls, history.installations⟩ where
  fits installation member := (h.fits installation member).addClass cls
  routine?_eq {site method} present := by
    rcases Assembly.routine?_of_addClass declared present with known | ⟨outside, absent⟩
    · exact h.routine?_eq known
    · have unrecorded : lastAt? site history.installations = none := by
        apply Option.eq_none_iff_forall_ne_some.2
        intro latest last
        obtain ⟨member, rfl⟩ := mem_of_lastAt? last
        exact Nat.not_lt.2 outside (h.fits latest member).inside
      rw [absent, unrecorded, Option.map_none]

theorem Recorded.install {history : History} (h : history.Recorded) {name : String}
    {point : HookPoint} {installation : Installation}
    (place : history.assembly.site? name point = some installation.site)
    (fits : installation.Fits history.assembly) :
    Recorded ⟨history.assembly.installAt installation.site installation.routine,
      history.installations ++ [installation]⟩ where
  fits other member := by
    rcases List.mem_append.1 member with earlier | same
    · exact (h.fits other earlier).installAt place _
    · rw [List.mem_singleton.1 same]
      exact fits.installAt place _
  routine?_eq {site method} present := by
    rw [lastAt?_concat]
    rw [Assembly.methodAt?_installAt] at present
    split at present
    · next here =>
      obtain ⟨before, -, rfl⟩ := Option.map_eq_some_iff.1 present
      rw [if_pos here]
      rfl
    · next elsewhere =>
      rw [if_neg elsewhere]
      exact h.routine?_eq present

theorem Recorded.edit {history : History} (h : history.Recorded) {edit : Edit}
    (allowed : edit.Allowed) : (history.edit edit).Recorded := by
  rw [History.edit]
  split
  · exact h
  · next after edited =>
    rcases Assembly.edited_cases allowed edited with
      ⟨cls, declared, rfl, nothing⟩ | ⟨name, point, installation, place, rfl, installed, fits⟩
    · rw [nothing, Option.toList_none, List.append_nil]
      exact h.addClass declared
    · rw [installed, Option.toList_some]
      exact h.install place fits

theorem recorded_ofEdits (title : String) {edits : List Edit}
    (allowed : ∀ edit ∈ edits, edit.Allowed) : (ofEdits title edits).Recorded := by
  induction edits using List.reverseRecOn with
  | nil => exact recorded_empty title
  | append_singleton edits last ih =>
    rw [ofEdits, List.foldl_append, List.foldl_cons, List.foldl_nil]
    exact (ih fun edit member => allowed edit (List.mem_append_left _ member)).edit
      (allowed last (List.mem_append_right _ (List.mem_singleton_self last)))

theorem Recorded.load_eq {history : History} (h : history.Recorded) {name : String}
    {cls : ClassDef} (known : history.assembly.class? name = some cls) (point : HookPoint)
    (settings : MachineSettings) :
    history.assembly.load name point settings = .ok ⟨cls.fullName,
      ((history.assembly.site? name point).bind (lastAt? · history.installations)).elim
        (.lookup (.ofList cls.handlers)) fun latest => .compiled latest.routine settings⟩ := by
  have dispatched : cls.dispatch point settings =
      ((history.assembly.site? name point).bind (lastAt? · history.installations)).elim
        (.lookup (.ofList cls.handlers)) fun latest => .compiled latest.routine settings := by
    rw [cls.dispatch_eq, Assembly.slot?_eq known]
    cases place : history.assembly.site? name point with
    | none => rfl
    | some site =>
      obtain ⟨method, present, -⟩ := Assembly.answers_of_site? place
      rw [Option.bind_some, Option.bind_some, present, Option.bind_some, h.routine?_eq present]
      cases lastAt? site history.installations <;> rfl
  rw [Assembly.load, known, ← dispatched]

end History

/-- After any edits of an empty assembly a class is dispatched by a routine exactly when an
installation was made at the site that its hook point has now, and then answers as the handlers of
the last routine installed there. Otherwise it answers as its own handlers. -/
theorem load_after_edits {edits : List Edit} (allowed : ∀ edit ∈ edits, edit.Allowed)
    {title name : String} {cls : ClassDef}
    (known : (History.ofEdits title edits).assembly.class? name = some cls) (point : HookPoint)
    (settings : MachineSettings) :
    let history := History.ofEdits title edits
    let site := history.assembly.site? name point
    ∃ plugin, history.assembly.load name point settings = .ok plugin ∧
      cls.slot? point = site.bind history.assembly.methodAt? ∧
      (plugin.dispatch.kind = .compiled ↔
        ∃ installation ∈ history.installations, site = some installation.site) ∧
      (∀ latest, site.bind (lastAt? · history.installations) = some latest →
        (latest.built = true → latest.routine.handlers.toList = cls.handlers) ∧
        (latest.routine.offsets.size ≤ settings.maxSteps → ∀ key out args,
          plugin.call key out args =
            (Dispatch.lookup (.ofList latest.routine.handlers.toList)).call key out args)) ∧
      ((∀ installation ∈ history.installations, site ≠ some installation.site) →
        ∀ key out args,
          plugin.call key out args =
            (Dispatch.lookup (.ofList cls.handlers)).call key out args) ∧
      ∀ added, (history.assembly.addClass added).class? name = some cls ∧
        (history.assembly.addClass added).classAt? name = history.assembly.classAt? name := by
  intro history site
  have recorded : history.Recorded := History.recorded_ofEdits title allowed
  have loaded : history.assembly.load name point settings = .ok ⟨cls.fullName,
      (site.bind (lastAt? · history.installations)).elim _ _⟩ :=
    recorded.load_eq known point settings
  refine ⟨_, loaded, Assembly.slot?_eq known point, ?_, ?_, ?_, Assembly.class?_addClass known⟩
  · rw [← exists_lastAt?_iff]
    cases site.bind (lastAt? · history.installations) with
    | none => exact ⟨nofun, nofun⟩
    | some latest => exact ⟨fun _ => ⟨latest, rfl⟩, fun _ => rfl⟩
  · intro latest found
    obtain ⟨place, located, last⟩ := Option.bind_eq_some_iff.1 found
    obtain ⟨member, rfl⟩ := mem_of_lastAt? last
    have fits := recorded.fits latest member
    obtain ⟨origin, handlers, compiler, compiled⟩ := fits.compiled
    refine ⟨fun built => ?_, fun enough key out args => ?_⟩
    · have own := fits.own built
      rw [Assembly.class?_of_site? located known, Option.map_some] at own
      exact (Option.some.inj own).symm
    · simp only [Instance.call, found, Option.elim_some, Dispatch.call]
      rw [call_of_compile compiled settings enough, handlers_of_compile compiled]
  · intro untouched key out args
    have nothing : site.bind (lastAt? · history.installations) = none := by
      apply Option.eq_none_iff_forall_ne_some.2
      intro latest found
      obtain ⟨installation, member, same⟩ := exists_lastAt?_iff.1 ⟨latest, found⟩
      exact untouched installation member same
    simp only [Instance.call, nothing, Option.elim_none]

private def timer : ClassDef where
  qualifier := ""
  name := "Timer"
  methods := [.ofHookPoint .standard, .ofHandler ⟨"n", [], fun args => some (.long args.length)⟩]

private def timerEdits : List Edit :=
  [.build "Timer" .standard default, .addClass timer, .build "Timer" .standard default]

theorem load_after_edits_timer :
    ∃ cls plugin, (History.ofEdits "m" timerEdits).assembly.class? "Timer" = some cls ∧
      (History.ofEdits "m" timerEdits).assembly.load "Timer" .standard default = .ok plugin ∧
      plugin.dispatch.kind = .compiled ∧
      ∀ key out args, plugin.call key out args =
        (Dispatch.lookup (.ofList cls.handlers)).call key out args := by
  have allowed (edit : Edit) (member : edit ∈ timerEdits) : edit.Allowed := by
    simp only [timerEdits, List.mem_cons, List.not_mem_nil, or_false] at member
    rcases member with rfl | rfl | rfl
    · exact .build _ _ _
    · refine .addClass fun method member => ?_
      simp only [timer, List.mem_cons, List.not_mem_nil, or_false] at member
      rcases member with rfl | rfl
      · exact .hookPoint .standard .isPublic false
      · exact .handler ⟨"n", [], fun args => some (.long args.length)⟩ .isPrivate false
    · exact .build _ _ _
  have resolved : ((History.ofEdits "m" timerEdits).assembly.class? "Timer").isSome := by
    decide +kernel
  have evaluated : (((History.ofEdits "m" timerEdits).assembly.site? "Timer" .standard).bind
      (lastAt? · (History.ofEdits "m" timerEdits).installations)).map
        (fun latest => (latest.built, latest.routine.offsets.size)) = some (true, 24) := by
    decide +kernel
  obtain ⟨cls, known⟩ := Option.isSome_iff_exists.1 resolved
  obtain ⟨latest, found, values⟩ := Option.map_eq_some_iff.1 evaluated
  obtain ⟨built, size⟩ := Prod.mk.inj values
  obtain ⟨plugin, loaded, -, compiled_iff, answers, -⟩ :=
    load_after_edits allowed known .standard default
  obtain ⟨own, same⟩ := answers latest found
  rw [own built] at same
  refine ⟨cls, plugin, known, loaded, ?_, same (size ▸ by decide)⟩
  exact compiled_iff.2 (exists_lastAt?_iff.1 ⟨latest, found⟩)

end TrieDispatch.Plugin
