import TrieDispatch.Proofs.Trie.Preorder

/-!
# Sizes by one sweep

Nodes have greater numbers than their parents, so in a sweep from the last node to the first all
children of a node have added their sizes before it adds its own.
-/

namespace TrieDispatch.Trie

def addToParent (nodes : Array Node) (sizes : Array Nat) (id : Nat) : Array Nat :=
  match nodes[id]?.bind Node.parent with
  | none => sizes
  | some parent => sizes.modify parent (· + sizeAt sizes id)

/-- Every node counts as one, and adds up from the last node down to the first below the root. -/
def sweep (nodes : Array Node) : Array Nat :=
  (List.range' 1 (nodes.size - 1)).reverse.foldl (addToParent nodes)
    (Array.replicate nodes.size 1)

/-- What the children of the node amount to that are numbered from `first` on. -/
def addedFrom (nodes : Array Node) (sizes : Array Nat) (first id : Nat) : Nat :=
  (((childrenOf nodes id).filter (first ≤ ·)).map (sizeAt sizes)).sum

/-- A sweep that has come down to `first`: later nodes have added their sizes. -/
structure Swept (nodes : Array Node) (sizes : Array Nat) (first : Nat) (table : Array Nat) :
    Prop where
  size_eq : table.size = nodes.size
  entry {id : Nat} (inside : id < nodes.size) :
    table[id]? = some (1 + addedFrom nodes sizes first id)

variable {nodes : Array Node} {sizes table : Array Nat} {trie : Trie} {id child first : Nat}

namespace Linked

theorem exists_under_iff (linked : Linked nodes) :
    (∃ label, Under nodes child id label) ↔ nodes[child]?.bind Node.parent = some id := by
  rw [Option.bind_eq_some_iff]
  constructor
  · rintro ⟨label, node, found, above, -⟩
    exact ⟨node, found, above⟩
  · rintro ⟨node, found, above⟩
    have below : child ≠ 0 := by
      rintro rfl
      obtain ⟨root, found', -, orphan, -⟩ := linked.root
      obtain rfl := Option.some.inj (found.symm.trans found')
      cases orphan.symm.trans above
    obtain ⟨-, -, label, -, labelled, -⟩ := linked.parent found below
    exact ⟨label, node, found, above, labelled⟩

theorem mem_childrenOf_iff (linked : Linked nodes) :
    child ∈ childrenOf nodes id ↔ ∃ label, Under nodes child id label := by
  rw [← exists_congr fun label => linked.edge_iff id label child, childrenOf]
  cases found : nodes[id]? with
  | none => simp [Edge, found]
  | some node => simp [Edge, found]

theorem lt_of_mem_childrenOf (linked : Linked nodes) (member : child ∈ childrenOf nodes id) :
    id < child ∧ child < nodes.size := by
  obtain ⟨label, under⟩ := linked.mem_childrenOf_iff.1 member
  exact ⟨linked.lt_of_under under, under.lt_size⟩

theorem addedFrom_of_le (linked : Linked nodes) (early : first ≤ id + 1) :
    addedFrom nodes sizes first id = ((childrenOf nodes id).map (sizeAt sizes)).sum := by
  have all : (childrenOf nodes id).filter (first ≤ ·) = childrenOf nodes id := by
    refine List.filter_eq_self.2 fun child member => ?_
    have later := (linked.lt_of_mem_childrenOf member).1
    exact decide_eq_true (Nat.le_trans early later)
  rw [addedFrom, all]

theorem addedFrom_size (linked : Linked nodes) : addedFrom nodes sizes nodes.size id = 0 := by
  have none : (childrenOf nodes id).filter (nodes.size ≤ ·) = [] := by
    refine List.filter_eq_nil_iff.2 fun child member => ?_
    have inside := (linked.lt_of_mem_childrenOf member).2
    rw [decide_eq_true_eq]
    exact Nat.not_le.2 inside
  rw [addedFrom, none, List.map_nil, List.sum_nil]

end Linked

theorem sum_filter_le (value : Nat → Nat) (bound : Nat) (elements : List Nat) :
    ((elements.filter (bound ≤ ·)).map value).sum =
      elements.count bound * value bound +
        ((elements.filter (bound + 1 ≤ ·)).map value).sum := by
  induction elements with
  | nil => simp
  | cons element elements ih =>
    rcases Nat.lt_trichotomy element bound with less | rfl | greater
    · rw [List.filter_cons_of_neg (by simp; omega), List.filter_cons_of_neg (by simp; omega),
        List.count_cons_of_ne (Nat.ne_of_lt less), ih]
    · rw [List.filter_cons_of_pos (by simp), List.filter_cons_of_neg (by simp),
        List.count_cons_self, List.map_cons, List.sum_cons, ih, Nat.succ_mul]
      omega
    · rw [List.filter_cons_of_pos (by simp; omega), List.filter_cons_of_pos (by simp; omega),
        List.count_cons_of_ne (Nat.ne_of_gt greater), List.map_cons, List.map_cons, List.sum_cons,
        List.sum_cons, ih]
      omega

theorem Represents.nodup_childrenOf (h : Represents nodes trie) (inside : id < nodes.size) :
    (childrenOf nodes id).Nodup := by
  obtain ⟨above, children, lodged, -, -⟩ := h.exists_below inside
  rw [lodged.childrenOf_eq, List.map_nil, List.nil_append]
  exact (List.nodup_cons.1 lodged.distinct).2.sublist children.tops_sublist_ids

section

variable (linked : Linked nodes) (h : Represents nodes trie)

include linked h

theorem Represents.count_childrenOf (inside : id < nodes.size) :
    (childrenOf nodes id).count child =
      if nodes[child]?.bind Node.parent = some id then 1 else 0 := by
  rw [List.Nodup.count (h.nodup_childrenOf inside)]
  simp only [linked.mem_childrenOf_iff, linked.exists_under_iff]

theorem Swept.sizeAt_eq (swept : Swept nodes trie.subtreeSizes (id + 1) table)
    (inside : id < nodes.size) : sizeAt table id = sizeAt trie.subtreeSizes id := by
  rw [sizeAt, sizeAt, swept.entry inside, linked.addedFrom_of_le (Nat.le_refl _),
    (h.sum_childrenOf inside).2]

theorem Swept.addToParent (swept : Swept nodes trie.subtreeSizes (id + 1) table)
    (inside : id < nodes.size) (below : id ≠ 0) :
    Swept nodes trie.subtreeSizes id (addToParent nodes table id) := by
  obtain ⟨parent, -, -, above, -⟩ := linked.parent (Array.getElem?_eq_getElem inside) below
  have above : nodes[id]?.bind Node.parent = some parent := by
    rw [Array.getElem?_eq_getElem inside, Option.bind_some, above]
  have added (other : Nat) (inside' : other < nodes.size) :
      addedFrom nodes trie.subtreeSizes id other =
        (if parent = other then sizeAt trie.subtreeSizes id else 0) +
          addedFrom nodes trie.subtreeSizes (id + 1) other := by
    rw [addedFrom, sum_filter_le, h.count_childrenOf linked inside', above, addedFrom]
    simp only [Option.some.injEq, ite_mul, Nat.one_mul, Nat.zero_mul]
  rw [Trie.addToParent, above]
  constructor
  · rw [Array.size_modify, swept.size_eq]
  · intro other inside'
    rw [Array.getElem?_modify, swept.entry inside', added other inside',
      swept.sizeAt_eq linked h inside]
    split
    · rw [Option.map_some, Nat.add_comm (sizeAt _ _), Nat.add_assoc]
    · rw [Nat.zero_add]

theorem Swept.foldl {count : Nat} (swept : Swept nodes trie.subtreeSizes (count + 1) table)
    (inside : count < nodes.size) :
    Swept nodes trie.subtreeSizes 1
      ((List.range' 1 count).reverse.foldl (Trie.addToParent nodes) table) := by
  induction count generalizing table with
  | zero => exact swept
  | succ count ih =>
    rw [List.range'_1_concat, List.reverse_append, List.reverse_singleton, List.singleton_append,
      List.foldl_cons, Nat.add_comm 1]
    exact ih (swept.addToParent linked h inside (Nat.succ_ne_zero count))
      (Nat.lt_of_succ_lt inside)

/-- The sweep leaves the size of its subtree at every node. -/
theorem Represents.sweep_eq : sweep nodes = trie.subtreeSizes := by
  have positive := linked.size_pos
  have start : Swept nodes trie.subtreeSizes (nodes.size - 1 + 1)
      (Array.replicate nodes.size 1) := by
    rw [Nat.sub_add_cancel positive]
    refine ⟨Array.size_replicate, fun inside => ?_⟩
    rw [Array.getElem?_replicate, if_pos inside, linked.addedFrom_size]
  have swept := start.foldl linked h (by omega)
  refine Array.ext_getElem? fun id => ?_
  by_cases inside : id < nodes.size
  · rw [sweep, swept.entry inside, linked.addedFrom_of_le (by omega), (h.sum_childrenOf inside).2]
  · rw [sweep, Array.getElem?_eq_none (by rw [swept.size_eq]; omega),
      Array.getElem?_eq_none (by rw [h.size_subtreeSizes]; omega)]

end

/-- After any insertions the sizes are what one sweep from the last node to the first finds. Each
counts the nodes that a walk in preorder reaches from its node. In preorder the first child of a
node comes next, and the next sibling after as many nodes as the size tells. -/
theorem sizes_number_preorder (names : List String) :
    let trie := (empty.insertEach names).1
    let nodes := trie.nodes
    let sizes := trie.subtreeSizes
    sizes.size = nodes.size ∧ sweep nodes = sizes ∧
    (∀ id < nodes.size,
      (∃ reached, (∀ other, Visited nodes [id] other ↔ other = reached) ∧ reached.Nodup ∧
        sizes[id]? = some reached.length) ∧
      ∃ parts, (childrenOf nodes id).mapM (sizes[·]?) = some parts ∧
        sizes[id]? = some (1 + parts.sum)) ∧
    ∃ order, Visited nodes [0] (0 :: order) ∧ order.Perm (List.range' 1 (nodes.size - 1)) ∧
      firstChild? nodes 0 = order[0]? ∧
      ∀ (number id size : Nat), order[number]? = some id → sizes[id]? = some size →
        (∀ child, firstChild? nodes id = some child → order[number + 1]? = some child) ∧
        ∀ next, nextSibling? nodes id = some next → order[number + size]? = some next := by
  intro trie nodes sizes
  obtain ⟨represents, linked, -⟩ : trie.Tabled (accepted names) := tabled_insertEach names
  have lodged := represents.lodged
  refine ⟨represents.size_subtreeSizes, represents.sweep_eq linked, fun id inside => ⟨?_, ?_⟩,
    trie.branches.ids, ?_, ?_, ?_, ?_⟩
  · obtain ⟨reached, visited, distinct, size⟩ := represents.exists_visited inside
    refine ⟨reached, fun other => ⟨visited.unique, ?_⟩, distinct, size⟩
    rintro rfl
    exact visited
  · obtain ⟨found, size⟩ := represents.sum_childrenOf inside
    exact ⟨_, found, size⟩
  · rw [← List.append_nil trie.branches.ids]
    exact .cons lodged.found lodged.visited .nil
  · rw [represents.size_eq]
    exact represents.ids
  · rw [firstChild?, lodged.childrenOf_eq, List.map_nil, List.nil_append, Forest.head?_tops,
      List.head?_eq_getElem?]
  · intro number id size placed counted
    obtain ⟨parent, above, before, label, stored, children, siblings, part, sized, ahead⟩ :=
      lodged.exists_part represents.sized placed
    obtain rfl := Option.some.inj ((Forest.sized_cons_iff.1 sized).1.symm.trans counted)
    exact ⟨fun child => part.firstChild_next ahead, fun next => part.nextSibling_next linked ahead⟩

/-- The subtree of `1` is not numbered in one go: `4` was opened below it after `3` beside it. -/
example : (empty.insertEach ["ab", "d", "ac"]).1.branches.ids = [1, 2, 4, 3] ∧
    sweep (empty.insertEach ["ab", "d", "ac"]).1.nodes = #[5, 3, 1, 1, 1] := by decide

end TrieDispatch.Trie
