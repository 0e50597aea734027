import TrieDispatch.Proofs.Trie.Rows

namespace TrieDispatch

namespace Forest

variable {sizes : Array Nat} {label : Char} {id : Nat} {name : Option String}
  {children siblings : Forest}

theorem length_ids (forest : Forest) : forest.ids.length = forest.size := by
  induction forest with
  | nil => rfl
  | cons label id name children siblings below beside =>
    rw [ids, size, List.length_cons, List.length_append, below, beside]
    omega

theorem map_fst_subtreeSizes (forest : Forest) : forest.subtreeSizes.map Prod.fst = forest.ids := by
  induction forest with
  | nil => rfl
  | cons label id name children siblings below beside =>
    rw [subtreeSizes, ids, List.map_cons, List.map_append, below, beside]

/-- The table has the sizes of the nodes of the forest in their rows. -/
def Sized (sizes : Array Nat) (forest : Forest) : Prop :=
  ∀ entry ∈ forest.subtreeSizes, sizes[entry.1]? = some entry.2

theorem sized_cons_iff : (cons label id name children siblings).Sized sizes ↔
    sizes[id]? = some (1 + children.size) ∧ children.Sized sizes ∧ siblings.Sized sizes := by
  simp only [Sized, subtreeSizes, List.forall_mem_cons, List.forall_mem_append]

end Forest

namespace Trie

section

variable {α : Type} {table : Array α} {entries : List (Nat × α)} {row : Nat} {value : α}

theorem getElem?_foldl_of_notMem (outside : row ∉ entries.map Prod.fst) :
    (entries.foldl (fun table entry => table.setIfInBounds entry.1 entry.2) table)[row]? =
      table[row]? := by
  induction entries generalizing table with
  | nil => rfl
  | cons entry entries ih =>
    rw [List.map_cons, List.mem_cons, not_or] at outside
    rw [List.foldl_cons, ih outside.2, Array.getElem?_setIfInBounds_ne (Ne.symm outside.1)]

theorem getElem?_foldl_of_mem (distinct : (entries.map Prod.fst).Nodup)
    (member : (row, value) ∈ entries) (inside : row < table.size) :
    (entries.foldl (fun table entry => table.setIfInBounds entry.1 entry.2) table)[row]? =
      some value := by
  induction entries generalizing table with
  | nil => cases member
  | cons entry entries ih =>
    rw [List.map_cons, List.nodup_cons] at distinct
    rw [List.foldl_cons]
    rcases List.mem_cons.1 member with rfl | member
    · rw [getElem?_foldl_of_notMem distinct.1, Array.getElem?_setIfInBounds_self_of_lt inside]
    · exact ih distinct.2 member (Array.size_setIfInBounds.symm ▸ inside)

theorem getElem?_tabulate {size : Nat} (distinct : (entries.map Prod.fst).Nodup)
    (member : (row, value) ∈ entries) (inside : row < size) (blank : α) :
    (tabulate size blank entries)[row]? = some value :=
  getElem?_foldl_of_mem distinct member (Array.size_replicate.symm ▸ inside)

end

theorem Represents.size_branches {nodes : Array Node} {trie : Trie} (h : Represents nodes trie) :
    trie.branches.size = trie.size - 1 := by
  rw [← Forest.length_ids, h.ids.length_eq, List.length_range']

theorem Represents.sized {nodes : Array Node} {trie : Trie} (h : Represents nodes trie) :
    trie.branches.Sized trie.subtreeSizes := by
  rintro ⟨id, size⟩ member
  have present : id ∈ trie.branches.ids := by
    rw [← Forest.map_fst_subtreeSizes]
    exact List.mem_map_of_mem member
  refine getElem?_tabulate ?_ (List.mem_cons_of_mem _ member) ?_ 0
  · rw [List.map_cons, Forest.map_fst_subtreeSizes]
    exact h.lodged.distinct
  · exact h.size_eq ▸ (h.mem_ids_iff.1 present).2

end Trie

end TrieDispatch
