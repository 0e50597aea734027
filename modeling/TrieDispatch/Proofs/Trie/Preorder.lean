import Mathlib.Algebra.GroupWithZero.Nat
import TrieDispatch.Proofs.Trie.Siblings
import TrieDispatch.Proofs.Trie.Sizes

/-! # Nodes in preorder -/

namespace TrieDispatch

namespace Trie

/-- What a walk in preorder from the nodes `starts` reaches, in order. -/
inductive Visited (nodes : Array Node) : (starts reached : List Nat) → Prop
  | nil : Visited nodes [] []
  | cons {id : Nat} {node : Node} {starts lower later : List Nat} (found : nodes[id]? = some node)
      (below : Visited nodes (node.edges.map Prod.snd) lower)
      (beside : Visited nodes starts later) :
      Visited nodes (id :: starts) (id :: (lower ++ later))

def sizeAt (sizes : Array Nat) (id : Nat) : Nat := sizes[id]?.getD 0

theorem Visited.unique {nodes : Array Node} {starts reached other : List Nat}
    (h : Visited nodes starts reached) (h' : Visited nodes starts other) : other = reached := by
  induction h generalizing other with
  | nil =>
    cases h'
    rfl
  | cons found _ _ inBelow inBeside =>
    cases h' with
    | cons found' below beside =>
      obtain rfl := Option.some.inj (found.symm.trans found')
      rw [inBelow below, inBeside beside]

end Trie

open Trie (childrenOf firstChild? nextSibling? sizeAt Linked Visited)

namespace Forest

variable {nodes : Array Trie.Node} {sizes : Array Nat} {parent number id : Nat}
  {above : Trie.Node} {before : List (Char × Nat)} {forest children siblings : Forest}
  {label : Char} {stored : Option String} {order : List Nat}

theorem head?_tops (forest : Forest) : forest.tops.head? = forest.ids.head? := by
  cases forest <;> rfl

theorem tops_sublist_ids (forest : Forest) : forest.tops.Sublist forest.ids := by
  induction forest with
  | nil => exact .slnil
  | cons label id stored children siblings below beside =>
    exact .cons_cons id (beside.trans (List.sublist_append_right _ _))

theorem Lodged.visited (h : forest.Lodged nodes parent above before) :
    Visited nodes forest.tops forest.ids := by
  induction forest generalizing parent above before with
  | nil => exact .nil
  | cons label id stored children siblings below beside =>
    exact .cons h.row (below h.below) (beside h.beside)

theorem Sized.sum_tops (sized : forest.Sized sizes) :
    forest.tops.mapM (sizes[·]?) = some (forest.tops.map (sizeAt sizes)) ∧
      (forest.tops.map (sizeAt sizes)).sum = forest.size := by
  induction forest with
  | nil => exact ⟨rfl, rfl⟩
  | cons label id stored children siblings below beside =>
    obtain ⟨own, -, rest⟩ := sized_cons_iff.1 sized
    obtain ⟨found, total⟩ := beside rest
    have own' : sizeAt sizes id = 1 + children.size := by rw [sizeAt, own, Option.getD_some]
    rw [tops] at found total
    refine ⟨?_, ?_⟩
    · simp [tops, edges, own, own', found]
    · rw [tops, edges, List.map_cons, List.map_cons, List.sum_cons, own', total, size]

/-- The preorder of a forest goes on, from any node, with the part of the forest that the node and
its later siblings are at the top of. -/
theorem Lodged.exists_part (h : forest.Lodged nodes parent above before)
    (sized : forest.Sized sizes) (member : forest.ids[number]? = some id) :
    ∃ parent above before label stored children siblings,
      (cons label id stored children siblings).Lodged nodes parent above before ∧
      (cons label id stored children siblings).Sized sizes ∧
      (cons label id stored children siblings).ids <+: forest.ids.drop number := by
  induction forest generalizing parent above before number with
  | nil => cases member
  | cons label top stored children siblings below beside =>
    obtain ⟨-, lower, rest⟩ := sized_cons_iff.1 sized
    cases number with
    | zero =>
      obtain rfl : top = id := Option.some.inj member
      exact ⟨parent, above, before, label, stored, children, siblings, h, sized, List.prefix_rfl⟩
    | succ number =>
      rw [ids, List.getElem?_cons_succ, List.getElem?_append] at member
      rw [ids, List.drop_succ_cons, List.drop_append]
      split at member
      next inside =>
        obtain ⟨parent, above, before, label, stored, children', siblings', lodged, sized, ahead⟩ :=
          below h.below lower member
        exact ⟨parent, above, before, label, stored, children', siblings', lodged, sized,
          ahead.trans (List.prefix_append _ _)⟩
      next outside =>
        rw [List.drop_eq_nil_of_le (Nat.le_of_not_lt outside), List.nil_append]
        exact beside h.beside rest member

theorem Lodged.firstChild_next
    (h : (cons label id stored children siblings).Lodged nodes parent above before)
    (ahead : (cons label id stored children siblings).ids <+: order.drop number) {child : Nat}
    (first : firstChild? nodes id = some child) : order[number + 1]? = some child := by
  rw [h.firstChild?_eq, head?_tops] at first
  obtain ⟨further, goesOn⟩ := ahead
  rw [← List.getElem?_drop, ← goesOn, ids, List.cons_append, List.getElem?_cons_succ,
    List.append_assoc, ← List.head?_eq_getElem?, List.head?_append, first, Option.some_or]

/-- The next sibling comes after the whole subtree. -/
theorem Lodged.nextSibling_next (linked : Linked nodes)
    (h : (cons label id stored children siblings).Lodged nodes parent above before)
    (ahead : (cons label id stored children siblings).ids <+: order.drop number) {next : Nat}
    (follows : nextSibling? nodes id = some next) :
    order[number + (1 + children.size)]? = some next := by
  rw [h.nextSibling?_eq linked, head?_tops] at follows
  obtain ⟨further, goesOn⟩ := ahead
  rw [← List.getElem?_drop, ← goesOn, ids, List.cons_append, Nat.add_comm 1,
    List.getElem?_cons_succ, List.append_assoc, ← length_ids,
    List.getElem?_append_right (Nat.le_refl _), Nat.sub_self, ← List.head?_eq_getElem?,
    List.head?_append, follows, Option.some_or]

end Forest

namespace Trie

variable {nodes : Array Node} {trie : Trie} {id : Nat}

theorem Represents.exists_below (h : Represents nodes trie) (inside : id < nodes.size) :
    ∃ above, ∃ children : Forest, children.Lodged nodes id above [] ∧
      children.Sized trie.subtreeSizes ∧ trie.subtreeSizes[id]? = some (1 + children.size) := by
  by_cases root : id = 0
  · subst root
    refine ⟨trie.root, trie.branches, h.lodged, h.sized, ?_⟩
    refine getElem?_tabulate ?_ List.mem_cons_self (h.size_eq ▸ inside) 0
    rw [List.map_cons, Forest.map_fst_subtreeSizes]
    exact h.lodged.distinct
  · have member : id ∈ trie.branches.ids := h.mem_ids_iff.2 ⟨Nat.pos_of_ne_zero root, inside⟩
    obtain ⟨number, present⟩ := List.mem_iff_getElem?.1 member
    obtain ⟨parent, above, before, label, stored, children, siblings, lodged, sized, -⟩ :=
      h.lodged.exists_part h.sized present
    obtain ⟨own, lower, -⟩ := Forest.sized_cons_iff.1 sized
    exact ⟨_, children, lodged.below, lower, own⟩

theorem size_tabulate {α : Type} (size : Nat) (blank : α) (entries : List (Nat × α)) :
    (tabulate size blank entries).size = size := by
  rw [tabulate]
  generalize start : Array.replicate size blank = table
  have length : table.size = size := start ▸ Array.size_replicate
  clear start
  induction entries generalizing table with
  | nil => exact length
  | cons entry entries ih => exact ih _ (Array.size_setIfInBounds.trans length)

theorem Represents.size_subtreeSizes (h : Represents nodes trie) :
    trie.subtreeSizes.size = nodes.size :=
  (size_tabulate _ _ _).trans h.size_eq.symm

/-- The size of a node counts what a walk from it reaches. -/
theorem Represents.exists_visited (h : Represents nodes trie) (inside : id < nodes.size) :
    ∃ reached, Visited nodes [id] reached ∧ reached.Nodup ∧
      trie.subtreeSizes[id]? = some reached.length := by
  obtain ⟨above, children, lodged, -, size⟩ := h.exists_below inside
  have below : Visited nodes (above.edges.map Prod.snd) children.ids := by
    rw [lodged.edges_eq, List.nil_append]
    exact lodged.visited
  refine ⟨id :: (children.ids ++ []), .cons lodged.found below .nil, ?_, ?_⟩
  · rw [List.append_nil]
    exact lodged.distinct
  · rw [List.append_nil, List.length_cons, Forest.length_ids, size, Nat.add_comm]

theorem Represents.sum_childrenOf (h : Represents nodes trie) (inside : id < nodes.size) :
    (childrenOf nodes id).mapM (trie.subtreeSizes[·]?) =
        some ((childrenOf nodes id).map (sizeAt trie.subtreeSizes)) ∧
      trie.subtreeSizes[id]? =
        some (1 + ((childrenOf nodes id).map (sizeAt trie.subtreeSizes)).sum) := by
  obtain ⟨above, children, lodged, sized, size⟩ := h.exists_below inside
  obtain ⟨found, total⟩ := sized.sum_tops
  rw [lodged.childrenOf_eq, List.map_nil, List.nil_append]
  exact ⟨found, total ▸ size⟩

end Trie

end TrieDispatch
