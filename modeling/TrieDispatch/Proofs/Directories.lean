import Mathlib.Data.List.Induction
import TrieDispatch.Program.Emission
import TrieDispatch.Proofs.Checked

namespace TrieDispatch

/-- The lowest index at which an earlier element occurs again. -/
theorem exists_first_repeat {α : Type} {elements : List α} (h : ¬elements.Nodup) :
    ∃ index element, elements[index]? = some element ∧ element ∈ elements.take index ∧
      (elements.take index).Nodup := by
  induction elements using List.reverseRecOn with
  | nil => exact absurd List.nodup_nil h
  | append_singleton elements last ih =>
    by_cases distinct : elements.Nodup
    · refine ⟨elements.length, last, by simp, ?_, by simpa using distinct⟩
      by_contra fresh
      apply h
      rw [List.take_left] at fresh
      exact List.nodup_append.2 ⟨distinct, List.pairwise_singleton _ last, by
        intro element member other same
        rw [List.mem_singleton.1 same]
        exact fun equal => fresh (equal ▸ member)⟩
    · obtain ⟨index, element, found, earlier, nodup⟩ := ih distinct
      have inside : index < elements.length := (List.getElem?_eq_some_iff.1 found).1
      have prior : (elements ++ [last]).take index = elements.take index :=
        List.take_append_of_le_length (Nat.le_of_lt inside)
      exact ⟨index, element, List.getElem?_append_left inside ▸ found, prior ▸ earlier,
        prior ▸ nodup⟩

namespace Directory

variable {directory : Directory} {handlers : List Handler}

/-- Each name is mapped to the position of the one handler that has it. -/
def Coherent (directory : Directory) : Prop :=
  ∀ name position, directory.position? name = some position ↔
    ∃ handler, directory.handlers[position]? = some handler ∧ handler.name = name

theorem coherent_empty : empty.Coherent := by
  intro name position
  simp [empty, position?]

theorem Coherent.contains_iff (h : directory.Coherent) (name : String) :
    directory.contains name = true ↔ name ∈ directory.handlers.toList.map Handler.name := by
  rw [contains, Std.TreeMap.contains_eq_isSome_getElem?, Option.isSome_iff_exists, List.mem_map]
  constructor
  · rintro ⟨position, known⟩
    obtain ⟨handler, present, same⟩ := (h name position).1 known
    exact ⟨handler, Array.mem_toList_iff.2 (Array.mem_of_getElem? present), same⟩
  · rintro ⟨handler, member, same⟩
    obtain ⟨position, present⟩ := Array.mem_iff_getElem?.1 (Array.mem_toList_iff.1 member)
    exact ⟨position, (h name position).2 ⟨handler, present, same⟩⟩

theorem Coherent.extend (h : directory.Coherent) {handler : Handler}
    (free : directory.contains handler.name = false) : (directory.extend handler).Coherent := by
  intro name position
  have unknown : directory.position? handler.name = none := by
    rw [contains, Std.TreeMap.contains_eq_isSome_getElem?] at free
    exact Option.not_isSome_iff_eq_none.1 (Bool.not_eq_true _ ▸ free)
  simp only [position?, Directory.extend, Std.TreeMap.getElem?_insert, Array.getElem?_push]
  by_cases same : handler.name = name
  · subst same
    simp only [Std.ReflCmp.compare_self, if_true, Option.some.injEq]
    constructor
    · rintro rfl
      exact ⟨handler, by rw [if_pos rfl], rfl⟩
    · rintro ⟨other, present, same⟩
      split at present
      next last => exact last.symm
      next =>
        have := (h handler.name position).2 ⟨other, present, same⟩
        rw [unknown] at this
        cases this
  · rw [if_neg (by simpa using same)]
    refine (h name position).trans ?_
    constructor
    · rintro ⟨other, present, named⟩
      have inside := (Array.getElem?_eq_some_iff.1 present).1
      exact ⟨other, by rw [if_neg (Nat.ne_of_lt inside), present], named⟩
    · rintro ⟨other, present, named⟩
      split at present
      next =>
        obtain rfl := Option.some.inj present
        exact absurd named same
      next => exact ⟨other, present, named⟩

theorem Coherent.register (h : directory.Coherent) (handler : Handler) :
    (directory.register handler).Coherent := by
  rw [Directory.register]
  split
  next => exact h
  next free => exact h.extend (Bool.not_eq_true _ ▸ free)

theorem coherent_ofList (handlers : List Handler) : (ofList handlers).Coherent := by
  have grow (directory : Directory) (h : directory.Coherent) :
      (handlers.foldl register directory).Coherent := by
    induction handlers generalizing directory with
    | nil => exact h
    | cons handler handlers ih => exact ih _ (h.register handler)
  exact grow empty coherent_empty

def registerNew (directory : Directory) (handler : Handler) : Except CompileError Directory :=
  match directory.register? handler with
  | some directory => .ok directory
  | none => .error (.duplicateName handler.name)

theorem ofDistinct_of_few (few : handlers.length ≤ maxHandlers) :
    ofDistinct handlers = handlers.foldlM registerNew empty := if_neg (Nat.not_lt.2 few)

theorem Coherent.registerEach (h : directory.Coherent) (handlers : List Handler)
    (distinct : (directory.handlers.toList.map Handler.name ++ handlers.map Handler.name).Nodup) :
    handlers.foldlM registerNew directory =
        .ok (handlers.foldl Directory.register directory) ∧
      (handlers.foldl Directory.register directory).handlers.toList =
        directory.handlers.toList ++ handlers := by
  induction handlers generalizing directory with
  | nil => simp [pure, Except.pure]
  | cons handler handlers ih =>
    have free : directory.contains handler.name = false := by
      rw [← Bool.not_eq_true, h.contains_iff]
      intro member
      exact (List.nodup_append.1 distinct).2.2 _ member _ List.mem_cons_self rfl
    have new : directory.registerNew handler = .ok (directory.extend handler) := by
      simp [registerNew, register?, free]
    have register_eq : directory.register handler = directory.extend handler := by
      simp [Directory.register, free]
    have rest := ih (h.extend free) (by simpa [Directory.extend] using distinct)
    rw [List.foldlM_cons, List.foldl_cons, new, register_eq]
    refine ⟨rest.1, rest.2.trans ?_⟩
    simp [Directory.extend]

theorem ofDistinct_of_tooMany (many : maxHandlers < handlers.length) :
    ofDistinct handlers = .error (.tooManyHandlers handlers.length) := if_pos many

theorem handlers_ofList (distinct : (handlers.map Handler.name).Nodup) :
    (ofList handlers).handlers = handlers.toArray := by
  have kept := (coherent_empty.registerEach handlers (by simpa [empty])).2
  apply Array.toList_inj.1
  rw [ofList, kept]
  simp [empty]

theorem ofDistinct_of_nodup (few : handlers.length ≤ maxHandlers)
    (distinct : (handlers.map Handler.name).Nodup) :
    ofDistinct handlers = .ok (ofList handlers) := by
  rw [ofDistinct_of_few few]
  exact (coherent_empty.registerEach handlers (by simpa [empty])).1

theorem ofDistinct_of_repeated (few : handlers.length ≤ maxHandlers) {index : Nat} {name : String}
    (named : (handlers.map Handler.name)[index]? = some name)
    (earlier : name ∈ (handlers.map Handler.name).take index)
    (distinct : ((handlers.map Handler.name).take index).Nodup) :
    ofDistinct handlers = .error (.duplicateName name) := by
  rw [List.getElem?_map, Option.map_eq_some_iff] at named
  obtain ⟨handler, present, rfl⟩ := named
  obtain ⟨inside, value⟩ := List.getElem?_eq_some_iff.1 present
  rw [← List.map_take] at earlier distinct
  have split : handlers = handlers.take index ++ handler :: handlers.drop (index + 1) := by
    rw [← value, ← List.drop_eq_getElem_cons, List.take_append_drop]
  obtain ⟨done, kept⟩ := coherent_empty.registerEach (handlers.take index)
    (by simpa [empty] using distinct)
  have taken : (ofList (handlers.take index)).contains handler.name = true := by
    rw [(coherent_ofList _).contains_iff, ofList, kept]
    simpa [empty] using earlier
  rw [ofDistinct_of_few few]
  generalize handlers.take index = before at *
  have refused : (ofList before).registerNew handler = .error (.duplicateName handler.name) := by
    simp [registerNew, register?, taken]
  rw [split, List.foldlM_append, done]
  show List.foldlM registerNew (ofList before) (handler :: _) = _
  rw [List.foldlM_cons, refused]
  rfl

theorem eq_ofList_of_ofDistinct (accepted : ofDistinct handlers = .ok directory) :
    handlers.length ≤ maxHandlers ∧ (handlers.map Handler.name).Nodup ∧
      directory = ofList handlers := by
  have few : handlers.length ≤ maxHandlers := by
    by_contra many
    cases (ofDistinct_of_tooMany (Nat.lt_of_not_le many)).symm.trans accepted
  have distinct : (handlers.map Handler.name).Nodup := by
    by_contra repeated
    obtain ⟨index, name, named, earlier, nodup⟩ := exists_first_repeat repeated
    cases (ofDistinct_of_repeated few named earlier nodup).symm.trans accepted
  exact ⟨few, distinct,
    Except.ok.inj (accepted.symm.trans (ofDistinct_of_nodup few distinct))⟩

end Directory

end TrieDispatch
