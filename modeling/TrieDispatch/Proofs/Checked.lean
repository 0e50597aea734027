import Mathlib.Data.List.Forall2

namespace TrieDispatch

variable {ε α β : Type}

theorem bind_ok (a : α) (f : α → Except ε β) : (Except.ok a >>= f) = f a := rfl

theorem bind_eq_ok_iff {x : Except ε α} {f : α → Except ε β} {b : β} :
    x >>= f = .ok b ↔ ∃ a, x = .ok a ∧ f a = .ok b := by
  cases x <;> simp [Bind.bind, Except.bind]

theorem bind_eq_error_iff {x : Except ε α} {f : α → Except ε β} {e : ε} :
    x >>= f = .error e ↔ x = .error e ∨ ∃ a, x = .ok a ∧ f a = .error e := by
  cases x <;> simp [Bind.bind, Except.bind]

theorem map_eq_ok_iff {x : Except ε α} {f : α → β} {b : β} :
    f <$> x = .ok b ↔ ∃ a, x = .ok a ∧ f a = b := by
  cases x <;> simp [Functor.map, Except.map]

theorem map_eq_error_iff {x : Except ε α} {f : α → β} {e : ε} :
    f <$> x = .error e ↔ x = .error e := by
  cases x <;> simp [Functor.map, Except.map]

theorem mapM_eq_ok_iff {f : α → Except ε β} {inputs : List α} {outputs : List β} :
    inputs.mapM f = .ok outputs ↔
      List.Forall₂ (fun input output => f input = .ok output) inputs outputs := by
  induction inputs generalizing outputs with
  | nil =>
    rw [List.mapM_nil, List.forall₂_nil_left_iff]
    exact ⟨fun h => (Except.ok.inj h).symm, fun h => congrArg Except.ok h.symm⟩
  | cons input inputs ih =>
    rw [List.mapM_cons, bind_eq_ok_iff]
    constructor
    · rintro ⟨first, done, h⟩
      obtain ⟨rest, others, h⟩ := bind_eq_ok_iff.1 h
      obtain rfl := Except.ok.inj h
      exact .cons done (ih.1 others)
    · intro h
      cases h with
      | cons done others =>
        exact ⟨_, done, bind_eq_ok_iff.2 ⟨_, ih.2 others, rfl⟩⟩

theorem exists_error_of_mapM {f : α → Except ε β} {inputs : List α} {e : ε}
    (h : inputs.mapM f = .error e) : ∃ input ∈ inputs, f input = .error e := by
  induction inputs with
  | nil => cases h
  | cons input inputs ih =>
    rw [List.mapM_cons] at h
    rcases bind_eq_error_iff.1 h with failed | ⟨output, -, h⟩
    · exact ⟨input, List.mem_cons_self, failed⟩
    · rcases bind_eq_error_iff.1 h with failed | ⟨outputs, -, h⟩
      · obtain ⟨other, member, failed⟩ := ih failed
        exact ⟨other, List.mem_cons_of_mem _ member, failed⟩
      · cases h

/-- The first computation that fails decides the error. -/
theorem mapM_of_first {f : α → Except ε β} {before after : List α} {input : α} {e : ε}
    (fine : ∀ other ∈ before, ∃ output, f other = .ok output) (failed : f input = .error e) :
    (before ++ input :: after).mapM f = .error e := by
  induction before with
  | nil =>
    rw [List.nil_append, List.mapM_cons, failed]
    rfl
  | cons other before ih =>
    obtain ⟨⟨output, done⟩, fine⟩ := List.forall_mem_cons.1 fine
    rw [List.cons_append, List.mapM_cons, done, bind_ok, ih fine]
    rfl

theorem exists_zipIdx_eq {elements : Array α} {position : Nat} {element : α}
    (present : elements[position]? = some element) :
    ∃ before after, elements.zipIdx.toList = before ++ (element, position) :: after ∧
      ∀ earlier ∈ before, earlier.2 < position ∧ elements[earlier.2]? = some earlier.1 := by
  rw [← Array.getElem?_toList] at present
  obtain ⟨inside, rfl⟩ := List.getElem?_eq_some_iff.1 present
  refine ⟨(elements.toList.take position).zipIdx,
    (elements.toList.drop (position + 1)).zipIdx (position + 1), ?_, ?_⟩
  · have length := List.length_take_of_le (Nat.le_of_lt inside)
    rw [Array.toList_zipIdx]
    conv_lhs => rw [← List.take_append_drop position elements.toList,
      List.drop_eq_getElem_cons inside, List.zipIdx_append, length, Nat.zero_add, List.zipIdx_cons]
  · rintro ⟨other, earlier⟩ member
    rw [List.mem_zipIdx_iff_getElem?, List.getElem?_take] at member
    split at member
    next before => exact ⟨before, Array.getElem?_toList ▸ member⟩
    next => cases member

end TrieDispatch
