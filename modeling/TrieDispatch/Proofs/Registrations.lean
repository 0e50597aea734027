import Mathlib.Data.List.Induction
import TrieDispatch.Dispatch
import TrieDispatch.Proofs.Directories

/-! # Registering handlers one after the other -/

namespace TrieDispatch.Directory

/-- The handlers whose names no earlier handler has. -/
def firstNamed (handlers : List Handler) : List Handler :=
  (handlers.zipIdx.filter fun entry =>
    entry.1.name ∉ (handlers.take entry.2).map Handler.name).map Prod.fst

variable {directory : Directory} {handlers : List Handler} {name : String}

theorem firstNamed_concat (handlers : List Handler) (last : Handler) :
    firstNamed (handlers ++ [last]) =
      if last.name ∈ handlers.map Handler.name then firstNamed handlers
      else firstNamed handlers ++ [last] := by
  have earlier : (handlers.zipIdx.filter fun entry =>
        entry.1.name ∉ ((handlers ++ [last]).take entry.2).map Handler.name) =
      handlers.zipIdx.filter fun entry =>
        entry.1.name ∉ (handlers.take entry.2).map Handler.name := by
    refine List.filter_congr fun entry member => ?_
    have inside := (List.mem_zipIdx' member).1
    rw [List.take_append_of_le_length (Nat.le_of_lt inside)]
  rw [firstNamed, List.zipIdx_append, List.filter_append, earlier, List.map_append, ← firstNamed]
  by_cases taken : last.name ∈ handlers.map Handler.name
  · simp [taken]
  · simp [taken]

theorem mem_map_firstNamed :
    name ∈ (firstNamed handlers).map Handler.name ↔ name ∈ handlers.map Handler.name := by
  induction handlers using List.reverseRecOn with
  | nil => rfl
  | append_singleton handlers last ih =>
    rw [firstNamed_concat, List.map_append, List.mem_append]
    split
    next taken =>
      rw [ih]
      refine ⟨.inl, fun member => member.elim id fun same => ?_⟩
      rwa [List.mem_singleton.1 same]
    next => rw [List.map_append, List.mem_append, ih]

theorem find?_firstNamed (handlers : List Handler) (name : String) :
    (firstNamed handlers).find? (·.name = name) = handlers.find? (·.name = name) := by
  induction handlers using List.reverseRecOn with
  | nil => rfl
  | append_singleton handlers last ih =>
    rw [firstNamed_concat, List.find?_append]
    split
    next taken =>
      obtain ⟨earlier, member, same⟩ := List.mem_map.1 taken
      rw [ih]
      cases found : handlers.find? (·.name = name) with
      | some first => rfl
      | none =>
        have other : last.name ≠ name := by
          rw [← same]
          simpa using List.find?_eq_none.1 found earlier member
        simp [other]
    next => rw [List.find?_append, ih]

theorem ofList_concat (handlers : List Handler) (last : Handler) :
    ofList (handlers ++ [last]) = (ofList handlers).register last :=
  List.foldl_append

theorem handlers_register (directory : Directory) (handler : Handler) :
    (directory.register handler).handlers.toList =
      if directory.contains handler.name then directory.handlers.toList
      else directory.handlers.toList ++ [handler] := by
  rw [register]
  split
  · rfl
  · rw [extend, Array.toList_push]

/-- What has been registered stays, less the handlers that came late. -/
theorem toList_handlers_ofList (handlers : List Handler) :
    (ofList handlers).handlers.toList = firstNamed handlers := by
  induction handlers using List.reverseRecOn with
  | nil => rfl
  | append_singleton handlers last ih =>
    rw [ofList_concat, handlers_register, firstNamed_concat, ih]
    simp only [(coherent_ofList handlers).contains_iff, ih, mem_map_firstNamed]

theorem contains_ofList_iff :
    (ofList handlers).contains name = true ↔ ∃ handler ∈ handlers, handler.name = name := by
  rw [(coherent_ofList handlers).contains_iff, toList_handlers_ofList, mem_map_firstNamed,
    List.mem_map]

theorem isSome_register?_iff (directory : Directory) (handler : Handler) :
    (directory.register? handler).isSome = true ↔ directory.contains handler.name = false := by
  rw [register?]
  cases directory.contains handler.name <;> simp

theorem register_eq_getD (directory : Directory) (handler : Handler) :
    directory.register handler = (directory.register? handler).getD directory := by
  rw [register, register?]
  split <;> rfl

theorem Coherent.get?_of_position? (h : directory.Coherent) {position : Nat}
    (known : directory.position? name = some position) :
    ∃ inside : position < directory.handlers.size,
      directory.get? name = some directory.handlers[position] := by
  obtain ⟨handler, present, -⟩ := (h name position).1 known
  obtain ⟨inside, -⟩ := Array.getElem?_eq_some_iff.1 present
  exact ⟨inside, by rw [get?, known, Option.bind_some, Array.getElem?_eq_getElem inside]⟩

theorem Coherent.get?_eq_find? (h : directory.Coherent) (name : String) :
    directory.get? name = directory.handlers.toList.find? (·.name = name) := by
  cases known : directory.position? name with
  | none =>
    rw [get?, known, Option.bind_none]
    refine (List.find?_eq_none.2 fun handler member => ?_).symm
    obtain ⟨position, present⟩ := Array.mem_iff_getElem?.1 (Array.mem_toList_iff.1 member)
    rw [decide_eq_true_eq]
    intro same
    cases known.symm.trans ((h name position).2 ⟨handler, present, same⟩)
  | some position =>
    obtain ⟨inside, found⟩ := h.get?_of_position? known
    obtain ⟨handler, present, same⟩ := (h name position).1 known
    obtain rfl := Option.some.inj ((Array.getElem?_eq_getElem inside).symm.trans present)
    rw [found]
    refine (List.find?_eq_some_iff_getElem.2 ⟨by simpa using same, position, by simpa using inside,
      by simp, fun index before => ?_⟩).symm
    have earlier : index < directory.handlers.size := Nat.lt_trans before inside
    rw [Array.getElem_toList, Bool.not_eq_true', decide_eq_false_iff_not]
    intro same
    have placed := (h name index).2 ⟨_, Array.getElem?_eq_getElem earlier, same⟩
    exact Nat.ne_of_lt before (Option.some.inj (placed.symm.trans known))

theorem get?_ofList (handlers : List Handler) (name : String) :
    (ofList handlers).get? name = handlers.find? (·.name = name) := by
  rw [(coherent_ofList handlers).get?_eq_find?, toList_handlers_ofList, find?_firstNamed]

def answerOf (handler? : Option Handler) (args : List Value) : Reply :=
  handler?.elim ⟨.ok false, none, #[]⟩ fun handler =>
    let bound := bindArgs handler.params args
    ⟨.ok true, handler.body bound, #[⟨handler, bound⟩]⟩

theorem call_eq_answerOf (directory : Directory) (key : String) (args : List Value) :
    directory.call key args = answerOf (directory.get? key) args := by
  rw [call]
  cases directory.get? key <;> rfl

/-- After any registrations the next handler is accepted just if its name is new. The directory
keeps the first handler of each name in order and knows its position, and a call is one call of the
handler that was registered first under the key, or none. -/
theorem first_registration_wins (given later : List Handler) :
    let handlers := given ++ later
    let directory := later.foldl register (ofList given)
    (∀ next,
      ((directory.register? next).isSome = true ↔
        ∀ handler ∈ handlers, handler.name ≠ next.name) ∧
      directory.register next = (directory.register? next).getD directory) ∧
    directory.handlers.toList = firstNamed handlers ∧
    (∀ name,
      (directory.contains name = true ↔ ∃ handler ∈ handlers, handler.name = name) ∧
      (∀ position, directory.position? name = some position ↔
        ∃ handler, directory.handlers[position]? = some handler ∧ handler.name = name) ∧
      (∀ position, directory.position? name = some position →
        ∃ inside : position < directory.handlers.size,
          directory.get? name = some directory.handlers[position]) ∧
      directory.get? name = handlers.find? (·.name = name)) ∧
    ∀ key out args, (Dispatch.lookup directory).call key out args =
      answerOf (handlers.find? (·.name = key)) args := by
  intro handlers directory
  have all : directory = ofList handlers := List.foldl_append.symm
  have coherent := coherent_ofList handlers
  clear_value directory
  subst all
  refine ⟨fun next => ⟨?_, register_eq_getD _ next⟩, toList_handlers_ofList handlers,
    fun name => ⟨contains_ofList_iff, coherent name, fun position => coherent.get?_of_position?,
      get?_ofList handlers name⟩, fun key out args => ?_⟩
  · rw [isSome_register?_iff, ← Bool.not_eq_true, contains_ofList_iff]
    simp
  · rw [Dispatch.call, call_eq_answerOf, get?_ofList]

end TrieDispatch.Directory
