import TrieDispatch.Proofs.Trie.Growth
import TrieDispatch.Proofs.Tries

/-! # The table of a trie -/

namespace TrieDispatch

open Trie (child? descend openChild markEnd nameOf)

namespace Forest

variable {nodes : Array Trie.Node} {parent depth id next node : Nat} {c label : Char}
  {forest grown children siblings : Forest} {name : String} {stored : Option String}
  {rest : List Char} {before : List (Char × Nat)} {above : Trie.Node}

def ids : Forest → List Nat
  | nil => []
  | cons _ id _ children siblings => id :: (children.ids ++ siblings.ids)

def Mirrored (nodes : Array Trie.Node) (parent depth : Nat) (forest : Forest) : Prop :=
  ∀ entry ∈ forest.nodes parent depth, nodes[entry.1]? = some entry.2

theorem map_fst_nodes (forest : Forest) (parent depth : Nat) :
    (forest.nodes parent depth).map Prod.fst = forest.ids := by
  induction forest generalizing parent depth with
  | nil => rfl
  | cons label id name children siblings below beside =>
    rw [nodes, ids, List.map_cons, List.map_append, below, beside]

theorem mirrored_nil : nil.Mirrored nodes parent depth := nofun

theorem mirrored_cons_iff :
    (cons label id stored children siblings).Mirrored nodes parent depth ↔
      nodes[id]? = some ⟨some label, stored, some parent, depth, children.edges⟩ ∧
        children.Mirrored nodes id (depth + 1) ∧ siblings.Mirrored nodes parent depth := by
  simp only [Mirrored, Forest.nodes, List.forall_mem_cons, List.forall_mem_append]

theorem Mirrored.of_eq {nodes' : Array Trie.Node} (h : forest.Mirrored nodes parent depth)
    (same : ∀ id ∈ forest.ids, nodes'[id]? = nodes[id]?) : forest.Mirrored nodes' parent depth := by
  intro entry member
  rw [same, h entry member]
  rw [← forest.map_fst_nodes parent depth]
  exact List.mem_map_of_mem member

theorem nameOf_eq {row : Trie.Node} (found : nodes[id]? = some row) :
    nameOf nodes id = row.name := by
  rw [nameOf, found, Option.bind_some]

/-- The forest is what stands in the table below `parent`, apart from the nodes on the edges
`before`. No two of these nodes share a row. -/
structure Lodged (nodes : Array Trie.Node) (parent : Nat) (above : Trie.Node)
    (before : List (Char × Nat)) (forest : Forest) : Prop where
  found : nodes[parent]? = some above
  edges_eq : above.edges = before ++ forest.edges
  mirrored : forest.Mirrored nodes parent (above.depth + 1)
  distinct : (parent :: forest.ids).Nodup
  inside : ∀ id ∈ forest.ids, id < nodes.size

namespace Lodged

theorem row (h : (cons c id stored children siblings).Lodged nodes parent above before) :
    nodes[id]? = some ⟨some c, stored, some parent, above.depth + 1, children.edges⟩ :=
  (mirrored_cons_iff.1 h.mirrored).1

theorem below (h : (cons c id stored children siblings).Lodged nodes parent above before) :
    children.Lodged nodes id ⟨some c, stored, some parent, above.depth + 1, children.edges⟩ [] where
  found := h.row
  edges_eq := rfl
  mirrored := (mirrored_cons_iff.1 h.mirrored).2.1
  distinct := by
    have distinct := (List.nodup_cons.1 h.distinct).2
    rw [ids, ← List.cons_append] at distinct
    exact (List.nodup_append.1 distinct).1
  inside other member := h.inside other (by simp [ids, member])

theorem beside (h : (cons c id stored children siblings).Lodged nodes parent above before) :
    siblings.Lodged nodes parent above (before ++ [(c, id)]) where
  found := h.found
  edges_eq := by
    rw [h.edges_eq, edges, List.append_assoc, List.singleton_append]
  mirrored := (mirrored_cons_iff.1 h.mirrored).2.2
  distinct := by
    obtain ⟨outside, distinct⟩ := List.nodup_cons.1 h.distinct
    simp only [ids, List.mem_cons, List.mem_append, not_or] at outside
    rw [ids, List.nodup_cons] at distinct
    exact List.nodup_cons.2 ⟨outside.2.2, (List.nodup_append.1 distinct.2).2.1⟩
  inside other member := h.inside other (by simp [ids, member])

theorem apart (h : (cons c id stored children siblings).Lodged nodes parent above before)
    {other : Nat} (member : other ∈ id :: children.ids) :
    other ≠ parent ∧ other ∉ siblings.ids := by
  obtain ⟨outside, distinct⟩ := List.nodup_cons.1 h.distinct
  rw [ids, ← List.cons_append] at outside distinct
  refine ⟨?_, fun member' => (List.nodup_append.1 distinct).2.2 other member other member' rfl⟩
  rintro rfl
  exact outside (List.mem_append_left _ member)

theorem names_eq (h : forest.Lodged nodes parent above before) :
    forest.names = forest.ids.filterMap (nameOf nodes) := by
  induction forest generalizing parent above before with
  | nil => rfl
  | cons label id stored children siblings inChildren inSiblings =>
    rw [names, ids, inChildren h.below, inSiblings h.beside, List.filterMap_cons,
      nameOf_eq h.row, List.filterMap_append]
    cases stored <;> rfl

theorem child?_eq (h : forest.Lodged nodes parent above before)
    (fresh : ∀ edge ∈ before, edge.1 ≠ label) :
    child? nodes parent label = forest.edges.lookup label := by
  have skipped : before.lookup label = none :=
    List.lookup_eq_none_iff.2 fun edge member => bne_iff_ne.2 (fresh edge member).symm
  rw [child?, h.found, Option.bind_some, h.edges_eq, List.lookup_append, skipped, Option.none_or]

theorem child?_cons (h : (cons c id stored children siblings).Lodged nodes parent above before)
    (fresh : ∀ edge ∈ before, edge.1 ≠ c) : child? nodes parent c = some id := by
  rw [h.child?_eq fresh, edges, List.lookup_cons_self]

theorem descend_cons (h : (cons c id stored children siblings).Lodged nodes parent above before)
    (fresh : ∀ edge ∈ before, edge.1 ≠ c) : descend (nodes, parent) c = (nodes, id) := by
  rw [descend, h.child?_cons fresh]

theorem descend_nil (h : nil.Lodged nodes parent above before)
    (fresh : ∀ edge ∈ before, edge.1 ≠ label) :
    descend (nodes, parent) label = (openChild nodes parent label, nodes.size) := by
  rw [descend, h.child?_eq fresh, edges, List.lookup_nil]

theorem opened (h : nil.Lodged nodes parent above before) (label : Char) :
    nil.Lodged (openChild nodes parent label) nodes.size
      ⟨some label, none, some parent, above.depth + 1, []⟩ [] where
  found := Trie.getElem?_openChild_size h.found label
  edges_eq := rfl
  mirrored := mirrored_nil
  distinct := List.pairwise_singleton _ _
  inside := List.forall_mem_nil _

theorem find?_eq (h : forest.Lodged nodes parent above before)
    (fresh : ∀ edge ∈ before, edge.1 ≠ label) :
    (label :: rest).foldlM (child? nodes) parent = (forest.find? label rest).map Prod.fst ∧
      ∀ id stored, forest.find? label rest = some (id, stored) → nameOf nodes id = stored := by
  induction forest generalizing parent above before label rest with
  | nil =>
    rw [List.foldlM_cons, h.child?_eq fresh]
    exact ⟨rfl, nofun⟩
  | cons c id stored children siblings inChildren inSiblings =>
    rw [find?.eq_def]
    by_cases same : c = label
    · subst same
      rw [List.foldlM_cons, h.child?_cons fresh]
      simp only [if_true]
      cases rest with
      | nil =>
        refine ⟨rfl, fun last name ends => ?_⟩
        obtain ⟨rfl, rfl⟩ := Prod.mk.inj (Option.some.inj ends)
        exact nameOf_eq h.row
      | cons d rest => exact inChildren h.below (List.forall_mem_nil _)
    · simp only [if_neg same]
      exact inSiblings h.beside (List.forall_mem_append.2 ⟨fresh, by simpa using same⟩)

end Lodged

theorem ids_path (name : String) (label : Char) (rest : List Char) (next : Nat) :
    (path name label rest next).ids = List.range' next (rest.length + 1) := by
  induction rest generalizing label next with
  | nil => rfl
  | cons d rest ih =>
    rw [path, ids, ih, ids, List.append_nil]
    rfl

/-- The nodes that an insertion adds are numbered upwards from `next`. -/
theorem ids_insert (h : forest.insert name next label rest = some (node, grown))
    (inside : ∀ id ∈ forest.ids, id < next) :
    grown.ids.Perm (forest.ids ++ List.range' next (node + 1 - next)) := by
  induction forest generalizing label rest node grown with
  | nil =>
    obtain ⟨rfl, rfl⟩ := insert_nil h
    have count : next + rest.length + 1 - next = rest.length + 1 := by omega
    rw [ids_path, count, ids, List.nil_append]
  | cons c id stored children siblings below beside =>
    rw [ids, List.forall_mem_cons, List.forall_mem_append] at inside
    obtain ⟨own, inside, inside'⟩ := inside
    rcases insert_cons_cases h with ⟨-, -, -, rfl, rfl⟩ | ⟨-, d, tail, grown, -, inserted, rfl⟩ |
      ⟨-, grown, inserted, rfl⟩
    · rw [Nat.sub_eq_zero_of_le own, List.range'_zero, List.append_nil, ids, ids]
    · have added := below inserted inside
      simp only [ids, List.cons_append]
      refine List.Perm.cons _ ((added.append_right siblings.ids).trans ?_)
      rw [List.append_assoc, List.append_assoc]
      exact List.perm_append_comm.append_left _
    · have added := beside inserted inside'
      simp only [ids, List.cons_append, List.append_assoc]
      exact List.Perm.cons _ (added.append_left _)

/-- The table after an insertion below `parent`: the rows of the forest and of the parent follow the
insertion, and other rows stay. -/
structure Updated (nodes after : Array Trie.Node) (parent : Nat) (above : Trie.Node)
    (before : List (Char × Nat)) (forest grown : Forest) (last : Nat) : Prop where
  size_eq : after.size = max nodes.size (last + 1)
  mirrored : grown.Mirrored after parent (above.depth + 1)
  parent_row : after[parent]? = some { above with edges := before ++ grown.edges }
  other_row {id : Nat} (inside : id < nodes.size) (differs : id ≠ parent)
    (outside : id ∉ forest.ids) : after[id]? = nodes[id]?

theorem updated_here (h : (cons c id none children siblings).Lodged nodes parent above before)
    (name : String) :
    Updated nodes (markEnd nodes id name) parent above before
      (cons c id none children siblings) (cons c id (some name) children siblings) id := by
  have own := h.apart List.mem_cons_self
  refine ⟨?_, ?_, ?_, ?_⟩
  · rw [markEnd, Array.size_modify]
    exact (Nat.max_eq_left (Array.getElem?_eq_some_iff.1 h.row).1).symm
  · rw [mirrored_cons_iff, Trie.getElem?_markEnd_of_some h.row, Trie.withName, if_pos rfl]
    refine ⟨rfl, h.below.mirrored.of_eq fun other member => ?_,
      h.beside.mirrored.of_eq fun other member => ?_⟩
    · have outside := (List.nodup_cons.1 h.below.distinct).1
      exact Trie.getElem?_markEnd_of_ne (ne_of_mem_of_not_mem member outside) name
    · exact Trie.getElem?_markEnd_of_ne (ne_of_mem_of_not_mem member own.2) name
  · rw [Trie.getElem?_markEnd_of_ne own.1.symm, h.found, edges, ← edges, ← h.edges_eq]
  · intro other _ _ outside
    rw [ids, List.mem_cons, not_or] at outside
    exact Trie.getElem?_markEnd_of_ne outside.1 name

theorem Updated.below {after : Array Trie.Node} {last : Nat}
    (h : (cons c id stored children siblings).Lodged nodes parent above before)
    (updated : Updated nodes after id ⟨some c, stored, some parent, above.depth + 1, children.edges⟩
      [] children grown last) :
    Updated nodes after parent above before (cons c id stored children siblings)
      (cons c id stored grown siblings) last := by
  refine ⟨updated.size_eq, ?_, ?_, ?_⟩
  · rw [mirrored_cons_iff]
    refine ⟨updated.parent_row, updated.mirrored, h.beside.mirrored.of_eq fun other member => ?_⟩
    refine updated.other_row (h.beside.inside other member) ?_ fun member' => ?_
    · exact ne_of_mem_of_not_mem member (h.apart List.mem_cons_self).2
    · exact (h.apart (List.mem_cons_of_mem _ member')).2 member
  · rw [updated.other_row (Array.getElem?_eq_some_iff.1 h.found).1
      (h.apart List.mem_cons_self).1.symm fun member =>
        (h.apart (List.mem_cons_of_mem _ member)).1 rfl, h.found, edges, ← edges, ← h.edges_eq]
  · intro other inside _ outside
    rw [ids, List.mem_cons, List.mem_append, not_or, not_or] at outside
    exact updated.other_row inside outside.1 outside.2.1

theorem Updated.beside {after : Array Trie.Node} {last : Nat}
    (h : (cons c id stored children siblings).Lodged nodes parent above before)
    (updated : Updated nodes after parent above (before ++ [(c, id)]) siblings grown last) :
    Updated nodes after parent above before (cons c id stored children siblings)
      (cons c id stored children grown) last := by
  refine ⟨updated.size_eq, ?_, ?_, ?_⟩
  · have own := h.apart List.mem_cons_self
    rw [mirrored_cons_iff, updated.other_row (Array.getElem?_eq_some_iff.1 h.row).1 own.1 own.2,
      h.row]
    refine ⟨rfl, h.below.mirrored.of_eq fun other member => ?_, updated.mirrored⟩
    have apart := h.apart (List.mem_cons_of_mem _ member)
    exact updated.other_row (h.below.inside other member) apart.1 apart.2
  · rw [updated.parent_row, edges, List.append_assoc, List.singleton_append]
  · intro other inside differs outside
    rw [ids, List.mem_cons, List.mem_append, not_or, not_or] at outside
    exact updated.other_row inside differs outside.2.2

theorem updated_opened (h : nil.Lodged nodes parent above before) (name : String) (label : Char) :
    Updated nodes (markEnd (openChild nodes parent label) nodes.size name) parent above before nil
      (path name label [] nodes.size) nodes.size := by
  have parent_inside : parent < nodes.size := (Array.getElem?_eq_some_iff.1 h.found).1
  have before_eq : above.edges = before := h.edges_eq.trans (List.append_nil before)
  refine ⟨?_, ?_, ?_, ?_⟩
  · rw [markEnd, Array.size_modify, Trie.size_openChild]
    exact (Nat.max_eq_right (Nat.le_succ _)).symm
  · rw [path, mirrored_cons_iff,
      Trie.getElem?_markEnd_of_some (Trie.getElem?_openChild_size h.found label), Trie.withName,
      if_pos rfl]
    exact ⟨rfl, mirrored_nil, mirrored_nil⟩
  · rw [Trie.getElem?_markEnd_of_some (Trie.getElem?_openChild_of_some h.found label h.found),
      Trie.withName, Trie.withEdge]
    simp [before_eq, path, edges, Nat.ne_of_lt parent_inside]
  · intro id inside differs _
    rw [Trie.getElem?_markEnd_of_ne (Nat.ne_of_lt inside),
      Trie.getElem?_openChild_of_ne h.found label inside differs]

theorem Updated.opened {after : Array Trie.Node} {last : Nat} {d : Char} {tail : List Char}
    (h : nil.Lodged nodes parent above before)
    (updated : Updated (openChild nodes parent label) after nodes.size
      ⟨some label, none, some parent, above.depth + 1, []⟩ [] nil
      (path name d tail (nodes.size + 1)) last)
    (new : nodes.size ≤ last) :
    Updated nodes after parent above before nil (path name label (d :: tail) nodes.size) last := by
  have parent_inside : parent < nodes.size := (Array.getElem?_eq_some_iff.1 h.found).1
  have before_eq : above.edges = before := h.edges_eq.trans (List.append_nil before)
  have size := Trie.size_openChild nodes parent label
  refine ⟨?_, ?_, ?_, ?_⟩
  · rw [updated.size_eq, size]
    omega
  · rw [path, mirrored_cons_iff]
    exact ⟨updated.parent_row, updated.mirrored, mirrored_nil⟩
  · rw [updated.other_row (by omega) (Nat.ne_of_lt parent_inside) (by simp [ids]),
      Trie.getElem?_openChild_of_some h.found label h.found, Trie.withEdge]
    simp [before_eq, path, edges]
  · intro id inside differs _
    rw [updated.other_row (by omega) (Nat.ne_of_lt inside) (by simp [ids]),
      Trie.getElem?_openChild_of_ne h.found label inside differs]

theorem Lodged.insert_path (h : nil.Lodged nodes parent above before)
    (fresh : ∀ edge ∈ before, edge.1 ≠ label) :
    ∃ walked, (label :: rest).foldl descend (nodes, parent) = (walked, nodes.size + rest.length) ∧
      nameOf walked (nodes.size + rest.length) = none ∧
      Updated nodes (markEnd walked (nodes.size + rest.length) name) parent above before nil
        (path name label rest nodes.size) (nodes.size + rest.length) := by
  induction rest generalizing nodes parent above before label with
  | nil =>
    refine ⟨openChild nodes parent label, ?_,
      nameOf_eq (Trie.getElem?_openChild_size h.found label), updated_opened h name label⟩
    rw [List.foldl_cons, h.descend_nil fresh, List.foldl_nil, List.length_nil, Nat.add_zero]
  | cons d tail ih =>
    obtain ⟨walked, walk, unnamed, updated⟩ :=
      ih (h.opened label) (List.forall_mem_nil fun edge : Char × Nat => edge.1 ≠ d)
    have position : nodes.size + 1 + tail.length = nodes.size + (d :: tail).length := by
      rw [List.length_cons]
      omega
    rw [Trie.size_openChild, position] at walk unnamed updated
    refine ⟨walked, ?_, unnamed, updated.opened h (Nat.le_add_right _ _)⟩
    rw [List.foldl_cons, h.descend_nil fresh, walk]

theorem Lodged.insert (h : forest.Lodged nodes parent above before)
    (fresh : ∀ edge ∈ before, edge.1 ≠ label)
    (inserted : forest.insert name nodes.size label rest = some (node, grown)) :
    ∃ walked, (label :: rest).foldl descend (nodes, parent) = (walked, node) ∧
      nameOf walked node = none ∧
      Updated nodes (markEnd walked node name) parent above before forest grown node := by
  induction forest generalizing parent above before label rest node grown with
  | nil =>
    obtain ⟨rfl, rfl⟩ := insert_nil inserted
    exact h.insert_path fresh
  | cons c id stored children siblings inChildren inSiblings =>
    rcases insert_cons_cases inserted with ⟨rfl, rfl, rfl, rfl, rfl⟩ |
      ⟨rfl, d, tail, grown, rfl, deeper, rfl⟩ | ⟨other, grown, further, rfl⟩
    · refine ⟨nodes, ?_, nameOf_eq h.row, updated_here h name⟩
      rw [List.foldl_cons, h.descend_cons fresh, List.foldl_nil]
    · obtain ⟨walked, walk, unnamed, updated⟩ := inChildren h.below (List.forall_mem_nil _) deeper
      refine ⟨walked, ?_, unnamed, updated.below h⟩
      rw [List.foldl_cons, h.descend_cons fresh, walk]
    · obtain ⟨walked, walk, unnamed, updated⟩ := inSiblings h.beside
        (List.forall_mem_append.2 ⟨fresh, by simpa using other⟩) further
      exact ⟨walked, walk, unnamed, updated.beside h⟩

end Forest

namespace Trie

variable {nodes : Array Node} {trie grown : Trie} {name query : String} {id node : Nat}

/-- The table has each node of the trie in its row, and no other rows. -/
structure Represents (nodes : Array Node) (trie : Trie) : Prop where
  size_eq : nodes.size = trie.size
  root_row : nodes[0]? = some trie.root
  mirrored : trie.branches.Mirrored nodes 0 1
  ids : trie.branches.ids.Perm (List.range' 1 (trie.size - 1))

theorem tabulate_eq {α : Type} {table : Array α} {entries : List (Nat × α)}
    (agree : ∀ entry ∈ entries, table[entry.1]? = some entry.2)
    (cover : ∀ row < table.size, row ∈ entries.map Prod.fst) (blank : α) :
    tabulate table.size blank entries = table := by
  -- Rows that are still to be entered may hold anything.
  suffices filled : ∀ start : Array α, start.size = table.size →
      (∀ row < table.size, start[row]? = table[row]? ∨ row ∈ entries.map Prod.fst) →
      entries.foldl (fun table entry => table.setIfInBounds entry.1 entry.2) start = table by
    exact filled _ Array.size_replicate fun row inside => .inr (cover row inside)
  clear cover
  induction entries with
  | nil =>
    intro start size rows
    show start = table
    refine Array.ext size fun row inside inside' => ?_
    have same := (rows row inside').resolve_right List.not_mem_nil
    rwa [Array.getElem?_eq_getElem inside, Array.getElem?_eq_getElem inside', Option.some.injEq]
      at same
  | cons entry entries ih =>
    intro start size rows
    obtain ⟨first, agree⟩ := List.forall_mem_cons.1 agree
    refine ih agree _ (Array.size_setIfInBounds.trans size) fun row inside => ?_
    by_cases here : entry.1 = row
    · subst here
      left
      rw [first, Array.getElem?_setIfInBounds_self_of_lt (size ▸ inside)]
    · rw [Array.getElem?_setIfInBounds_ne here]
      refine (rows row inside).imp_right fun member => ?_
      rw [List.map_cons, List.mem_cons] at member
      exact member.resolve_left (Ne.symm here)

theorem Represents.nodes_eq (h : Represents nodes trie) : trie.nodes = nodes := by
  rw [Trie.nodes, ← h.size_eq]
  apply tabulate_eq
  · exact List.forall_mem_cons.2 ⟨h.root_row, h.mirrored⟩
  · intro row inside
    rw [List.map_cons, Forest.map_fst_nodes, List.mem_cons, h.ids.mem_iff, List.mem_range'_1]
    have := h.size_eq
    omega

theorem represents_empty : Represents rootOnly empty where
  size_eq := rfl
  root_row := rfl
  mirrored := Forest.mirrored_nil
  ids := .refl _

theorem Represents.mem_ids_iff (h : Represents nodes trie) :
    id ∈ trie.branches.ids ↔ 1 ≤ id ∧ id < nodes.size := by
  rw [h.ids.mem_iff, List.mem_range'_1, h.size_eq]
  omega

theorem Represents.lodged (h : Represents nodes trie) :
    trie.branches.Lodged nodes 0 trie.root [] where
  found := h.root_row
  edges_eq := rfl
  mirrored := h.mirrored
  distinct := List.nodup_cons.2 ⟨fun zero => absurd (h.mem_ids_iff.1 zero).1 (by decide),
    h.ids.nodup_iff.2 List.nodup_range'⟩
  inside id member := (h.mem_ids_iff.1 member).2

theorem ne_empty_of_toList {label : Char} {rest : List Char}
    (spelled : name.toList = label :: rest) : name ≠ "" := by
  rintro rfl
  cases spelled

theorem insert_cases (trie : Trie) (name : String) :
    (name = "" ∧ trie.insert name = .error .emptyName) ∨
      ∃ label rest, name.toList = label :: rest ∧
        ((trie.branches.insert name trie.size label rest = none ∧
          trie.insert name = .error (.duplicateName name)) ∨
        ∃ node branches, trie.branches.insert name trie.size label rest = some (node, branches) ∧
          trie.insert name = .ok (⟨branches, max trie.size (node + 1)⟩, node)) := by
  cases spelled : name.toList with
  | nil => exact .inl ⟨String.toList_eq_nil_iff.1 spelled, by simp only [Trie.insert, spelled]⟩
  | cons label rest =>
    refine .inr ⟨label, rest, rfl, ?_⟩
    cases inserted : trie.branches.insert name trie.size label rest with
    | none => exact .inl ⟨rfl, by simp only [Trie.insert, spelled, inserted]⟩
    | some result =>
      exact .inr ⟨result.1, result.2, rfl, by simp only [Trie.insert, spelled, inserted]⟩

theorem Represents.find?_branches (h : Represents nodes trie) (label : Char) (rest : List Char) :
    (label :: rest).foldlM (child? nodes) 0 = (trie.branches.find? label rest).map Prod.fst ∧
      ∀ id stored, trie.branches.find? label rest = some (id, stored) → nameOf nodes id = stored :=
  h.lodged.find?_eq (List.forall_mem_nil _)

theorem Represents.find?_eq (h : Represents nodes trie) (query : String) :
    trie.find? query = follow nodes query.toList := by
  rw [find?, follow]
  cases query.toList with
  | nil => rfl
  | cons label rest => exact (h.find?_branches label rest).1.symm

theorem Represents.contains_iff (h : Represents nodes trie) :
    trie.contains query = true ↔
      query ≠ "" ∧
        ∃ id name, follow nodes query.toList = some id ∧ nameOf nodes id = some name := by
  rw [contains, follow]
  cases spelled : query.toList with
  | nil => simp [String.toList_eq_nil_iff.1 spelled]
  | cons label rest =>
    obtain ⟨follows, names⟩ := h.find?_branches label rest
    rw [follows]
    cases found : trie.branches.find? label rest with
    | none => simp [found]
    | some last =>
      obtain ⟨id, stored⟩ := last
      simp [found, ne_empty_of_toList spelled, names id stored found, Option.isSome_iff_exists]

theorem foldl_descend_of_foldlM {chars : List Char} {start : Nat}
    (h : chars.foldlM (child? nodes) start = some id) :
    chars.foldl descend (nodes, start) = (nodes, id) := by
  induction chars generalizing start with
  | nil => rw [List.foldl_nil, Option.some.inj h]
  | cons label rest ih =>
    rw [List.foldlM_cons] at h
    obtain ⟨next, found, h⟩ := Option.bind_eq_some_iff.1 h
    rw [List.foldl_cons, descend, found]
    exact ih h

/-- The numbers that are given out stay without gaps. -/
theorem Represents.ids_insert (h : Represents nodes trie) {label : Char} {rest : List Char}
    {branches : Forest}
    (inserted : trie.branches.insert name trie.size label rest = some (node, branches)) :
    branches.ids.Perm (List.range' 1 (max trie.size (node + 1) - 1)) := by
  have inside : ∀ id ∈ trie.branches.ids, id < trie.size := h.size_eq ▸ h.lodged.inside
  have positive := h.size_eq ▸ (Array.getElem?_eq_some_iff.1 h.root_row).1
  have joined := List.range'_append_1 (s := 1) (m := trie.size - 1) (n := node + 1 - trie.size)
  rw [Nat.add_sub_cancel' (show 1 ≤ trie.size from positive)] at joined
  have count : max trie.size (node + 1) - 1 = trie.size - 1 + (node + 1 - trie.size) := by omega
  rw [count, ← joined]
  exact (Forest.ids_insert inserted inside).trans (h.ids.append_right _)

theorem Represents.insert_ok (h : Represents nodes trie)
    (inserted : trie.insert name = .ok (grown, node)) :
    ∃ after, insertInPlace nodes name = (after, .ok node) ∧ Represents after grown := by
  rcases insert_cases trie name with ⟨-, failed⟩ | ⟨label, rest, spelled, ⟨-, failed⟩ |
    ⟨last, branches, below, done⟩⟩
  · cases failed.symm.trans inserted
  · cases failed.symm.trans inserted
  · obtain ⟨rfl, rfl⟩ := Prod.mk.inj (Except.ok.inj (done.symm.trans inserted))
    obtain ⟨walked, walk, unnamed, updated⟩ :=
      h.lodged.insert (List.forall_mem_nil _) (h.size_eq ▸ below)
    refine ⟨markEnd walked last name, ?_, ?_, updated.parent_row, updated.mirrored,
      h.ids_insert below⟩
    · rw [insertInPlace, if_neg (ne_empty_of_toList spelled), spelled, walk]
      simp only [unnamed]
    · rw [updated.size_eq, h.size_eq]

theorem Represents.insert_error (h : Represents nodes trie) {error : CompileError}
    (refused : trie.insert name = .error error) :
    ∃ after, insertInPlace nodes name = (after, .error error) := by
  rcases insert_cases trie name with ⟨empty, failed⟩ | ⟨label, rest, spelled, ⟨below, failed⟩ |
    ⟨last, branches, -, done⟩⟩
  · obtain rfl := Except.error.inj (failed.symm.trans refused)
    exact ⟨nodes, by rw [insertInPlace, if_pos empty]⟩
  · obtain rfl := Except.error.inj (failed.symm.trans refused)
    obtain ⟨other, ends⟩ := Option.isSome_iff_exists.1 (Forest.insert_eq_none_iff.1 below)
    obtain ⟨⟨id, stored⟩, found, rfl⟩ := Option.bind_eq_some_iff.1 ends
    obtain ⟨follows, names⟩ := h.find?_branches label rest
    rw [found] at follows
    refine ⟨nodes, ?_⟩
    rw [insertInPlace, if_neg (ne_empty_of_toList spelled), spelled,
      foldl_descend_of_foldlM follows]
    simp only [names id _ found]
  · cases done.symm.trans refused

end Trie

end TrieDispatch
