import TrieDispatch.Proofs.Trie.Insertions

namespace TrieDispatch

namespace Trie

def childrenOf (nodes : Array Node) (id : Nat) : List Nat :=
  nodes[id]?.elim [] fun node => node.edges.map Prod.snd

def siblingsOf (nodes : Array Node) (id : Nat) : List Nat :=
  (nodes[id]?.bind Node.parent).elim [] (childrenOf nodes)

def firstChild? (nodes : Array Node) (id : Nat) : Option Nat := (childrenOf nodes id).head?

def nextSibling? (nodes : Array Node) (id : Nat) : Option Nat :=
  (siblingsOf nodes id)[(siblingsOf nodes id).idxOf id + 1]?

end Trie

open Trie (childrenOf siblingsOf firstChild? nextSibling? Linked)

namespace Forest

variable {nodes : Array Trie.Node} {parent id : Nat} {above : Trie.Node}
  {before : List (Char × Nat)} {forest children siblings : Forest} {label : Char}
  {stored : Option String}

def tops (forest : Forest) : List Nat := forest.edges.map Prod.snd

theorem Lodged.childrenOf_eq (h : forest.Lodged nodes parent above before) :
    childrenOf nodes parent = before.map Prod.snd ++ forest.tops := by
  rw [childrenOf, h.found, Option.elim_some, h.edges_eq, List.map_append, tops]

theorem Lodged.siblingsOf_eq
    (h : (cons label id stored children siblings).Lodged nodes parent above before) :
    siblingsOf nodes id = before.map Prod.snd ++ id :: siblings.tops := by
  rw [siblingsOf, h.row, Option.bind_some, Option.elim_some, h.childrenOf_eq]
  rfl

theorem Lodged.idxOf_siblingsOf (linked : Linked nodes)
    (h : (cons label id stored children siblings).Lodged nodes parent above before) :
    (siblingsOf nodes id).idxOf id = before.length := by
  have first : id ∉ before.map Prod.snd := by
    intro earlier
    obtain ⟨⟨c, other⟩, member, rfl⟩ := List.mem_map.1 earlier
    have edge : (c, other) ∈ above.edges := h.edges_eq ▸ List.mem_append_left _ member
    have under := (linked.edge_iff _ _ _).1 ⟨above, h.found, edge⟩
    obtain ⟨-, rfl⟩ := Linked.under_unique under ⟨_, h.row, rfl, rfl⟩
    have distinct := linked.distinct h.found
    rw [h.edges_eq, edges, List.map_append, List.nodup_append] at distinct
    exact distinct.2.2 _ (List.mem_map_of_mem member) _ List.mem_cons_self rfl
  rw [h.siblingsOf_eq, List.idxOf_append_of_notMem first, List.idxOf_cons_self, List.length_map,
    Nat.add_zero]

theorem Lodged.nextSibling?_eq (linked : Linked nodes)
    (h : (cons label id stored children siblings).Lodged nodes parent above before) :
    nextSibling? nodes id = siblings.tops.head? := by
  rw [nextSibling?, h.idxOf_siblingsOf linked, h.siblingsOf_eq, List.append_cons,
    List.getElem?_append_right (by simp), List.head?_eq_getElem?]
  simp

theorem Lodged.firstChild?_eq
    (h : (cons label id stored children siblings).Lodged nodes parent above before) :
    firstChild? nodes id = children.tops.head? := by
  rw [firstChild?, h.below.childrenOf_eq]
  rfl

end Forest

end TrieDispatch
