import TrieDispatch.Trie

/-! # Trie nodes by number -/

namespace TrieDispatch

/-- The root has neither label nor parent. -/
structure Trie.Node where
  label : Option Char
  name : Option String
  parent : Option Nat
  depth : Nat
  edges : List (Char × Nat)
  deriving Inhabited, Repr

/-- The nodes in preorder, for a forest whose topmost nodes have `parent` and `depth`. -/
def Forest.nodes (parent depth : Nat) : Forest → List (Nat × Trie.Node)
  | nil => []
  | cons label id name children siblings =>
    (id, ⟨some label, name, some parent, depth, children.edges⟩) ::
      (children.nodes id (depth + 1) ++ siblings.nodes parent depth)

/-- The number of nodes at and below each node, in preorder. -/
def Forest.subtreeSizes : Forest → List (Nat × Nat)
  | nil => []
  | cons _ id _ children siblings =>
    (id, 1 + children.size) :: (children.subtreeSizes ++ siblings.subtreeSizes)

namespace Trie

/-- The table with `size` rows that holds each numbered entry in its row. -/
def tabulate {α : Type} (size : Nat) (blank : α) (entries : List (Nat × α)) : Array α :=
  entries.foldl (fun table entry => table.setIfInBounds entry.1 entry.2)
    (Array.replicate size blank)

def root (trie : Trie) : Trie.Node := ⟨none, none, none, 0, trie.branches.edges⟩

def nodes (trie : Trie) : Array Trie.Node :=
  tabulate trie.size trie.root ((0, trie.root) :: trie.branches.nodes 0 1)

/-- The number of children of the parent, the node itself included; `1` for the root. -/
def siblingCount (nodes : Array Trie.Node) (node : Trie.Node) : Nat :=
  match node.parent with
  | none => 1
  | some parent => (nodes[parent]?.map (·.edges.length)).getD 0

def subtreeSizes (trie : Trie) : Array Nat :=
  tabulate trie.size 0 ((0, 1 + trie.branches.size) :: trie.branches.subtreeSizes)

end Trie

end TrieDispatch
