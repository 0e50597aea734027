import Mathlib.Data.List.Induction
import TrieDispatch.Trie.Nodes

/-! # Growing a trie in place -/

namespace TrieDispatch.Trie

def child? (nodes : Array Node) (id : Nat) (label : Char) : Option Nat :=
  nodes[id]?.bind fun node => node.edges.lookup label

def follow (nodes : Array Node) (chars : List Char) : Option Nat :=
  chars.foldlM (child? nodes) 0

def rootOnly : Array Node := #[⟨none, none, none, 0, []⟩]

def openChild (nodes : Array Node) (parent : Nat) (label : Char) : Array Node :=
  let depth := (nodes[parent]?.map Node.depth).getD 0
  (nodes.modify parent fun node =>
    { node with edges := node.edges ++ [(label, nodes.size)] }).push
      ⟨some label, none, some parent, depth + 1, []⟩

/-- Goes to the child that is reached by the label, which is opened if it is missing. -/
def descend (place : Array Node × Nat) (label : Char) : Array Node × Nat :=
  match child? place.1 place.2 label with
  | some next => (place.1, next)
  | none => (openChild place.1 place.2 label, place.1.size)

def nameOf (nodes : Array Node) (id : Nat) : Option String := nodes[id]?.bind Node.name

def markEnd (nodes : Array Node) (id : Nat) (name : String) : Array Node :=
  nodes.modify id fun node => { node with name := some name }

/-- Nodes that were opened on the way stay, even if the name is refused in the end. -/
def insertInPlace (nodes : Array Node) (name : String) : Array Node × Except CompileError Nat :=
  if name = "" then (nodes, .error .emptyName)
  else
    let (grown, last) := name.toList.foldl descend (nodes, 0)
    match nameOf grown last with
    | some _ => (grown, .error (.duplicateName name))
    | none => (markEnd grown last name, .ok last)

def Under (nodes : Array Node) (id parent : Nat) (label : Char) : Prop :=
  ∃ node, nodes[id]? = some node ∧ node.parent = some parent ∧ node.label = some label

def Edge (nodes : Array Node) (parent : Nat) (label : Char) (id : Nat) : Prop :=
  ∃ node, nodes[parent]? = some node ∧ (label, id) ∈ node.edges

/-- The characters on the path from the root to a node, as the links to parents give them. -/
inductive Spells (nodes : Array Node) : Nat → List Char → Prop
  | root : Spells nodes 0 []
  | step {parent id : Nat} {chars : List Char} {label : Char} (above : Spells nodes parent chars)
      (under : Under nodes id parent label) : Spells nodes id (chars ++ [label])

/-- Parents come before their children, and edges are the links to parents read backwards. -/
structure Linked (nodes : Array Node) : Prop where
  root : ∃ node, nodes[0]? = some node ∧ node.label = none ∧ node.parent = none ∧ node.depth = 0
  parent {id : Nat} {node : Node} (found : nodes[id]? = some node) (below : id ≠ 0) :
    ∃ parent above label, node.parent = some parent ∧ node.label = some label ∧ parent < id ∧
      nodes[parent]? = some above ∧ node.depth = above.depth + 1
  edge_iff (parent : Nat) (label : Char) (id : Nat) :
    Edge nodes parent label id ↔ Under nodes id parent label
  distinct {id : Nat} {node : Node} (found : nodes[id]? = some node) :
    (node.edges.map Prod.fst).Nodup

/-- Names stand where their characters lead, and there are no nodes but on the way to names. -/
structure Named (nodes : Array Node) (names : List String) : Prop where
  spells {id : Nat} {name : String} (named : nameOf nodes id = some name) :
    Spells nodes id name.toList ∧ name ∈ names
  marked {name : String} (member : name ∈ names) : ∃ id, nameOf nodes id = some name
  used {id : Nat} (inside : id < nodes.size) (below : id ≠ 0) :
    ∃ chars name, Spells nodes id chars ∧ name ∈ names ∧ chars <+: name.toList
  nonempty : "" ∉ names

variable {nodes grown : Array Node} {names : List String} {id parent : Nat} {label : Char}
  {chars other : List Char}

theorem lookup_eq_some_iff_mem {α β : Type} [DecidableEq α] {entries : List (α × β)} {key : α}
    {value : β} (distinct : (entries.map Prod.fst).Nodup) :
    entries.lookup key = some value ↔ (key, value) ∈ entries := by
  induction entries with
  | nil => simp
  | cons entry entries ih =>
    obtain ⟨fresh, distinct⟩ := List.nodup_cons.1 distinct
    rw [List.lookup_cons, List.mem_cons, Prod.ext_iff]
    by_cases here : key = entry.1
    · subst here
      have elsewhere : (entry.1, value) ∉ entries := fun member =>
        fresh (List.mem_map.2 ⟨_, member, rfl⟩)
      simp [elsewhere, eq_comm]
    · rw [beq_false_of_ne here]
      simp [here, ih distinct]

/-! ## Links and paths -/

theorem Under.lt_size (h : Under nodes id parent label) : id < nodes.size := by
  obtain ⟨node, found, -⟩ := h
  exact (Array.getElem?_eq_some_iff.1 found).1

theorem Spells.imp (h : ∀ {id parent label}, Under nodes id parent label →
    Under grown id parent label) (spells : Spells nodes id chars) : Spells grown id chars := by
  induction spells with
  | root => exact .root
  | step above under ih => exact ih.step (h under)

theorem spells_nil_iff : Spells nodes id [] ↔ id = 0 := by
  constructor
  · intro spells
    generalize empty : ([] : List Char) = chars at spells
    cases spells with
    | root => rfl
    | step => simp at empty
  · rintro rfl
    exact .root

theorem spells_concat_iff : Spells nodes id (chars ++ [label]) ↔
    ∃ parent, Spells nodes parent chars ∧ Under nodes id parent label := by
  constructor
  · intro spells
    generalize longer : chars ++ [label] = spelled at spells
    cases spells with
    | root => simp at longer
    | step above under =>
      obtain ⟨rfl, same⟩ := List.append_inj' longer rfl
      obtain rfl := List.singleton_inj.1 same
      exact ⟨_, above, under⟩
  · rintro ⟨parent, above, under⟩
    exact above.step under

namespace Linked

theorem size_pos (linked : Linked nodes) : 0 < nodes.size := by
  obtain ⟨node, found, -⟩ := linked.root
  exact (Array.getElem?_eq_some_iff.1 found).1

theorem not_under_zero (linked : Linked nodes) : ¬Under nodes 0 parent label := by
  rintro ⟨node, found, above, -⟩
  obtain ⟨root, found', -, none_above, -⟩ := linked.root
  obtain rfl := Option.some.inj (found.symm.trans found')
  rw [none_above] at above
  cases above

theorem lt_size_of_spells (linked : Linked nodes) (spells : Spells nodes id chars) :
    id < nodes.size := by
  cases spells with
  | root => exact linked.size_pos
  | step _ under => exact under.lt_size

theorem under_unique {parent' : Nat} {label' : Char} (h : Under nodes id parent label)
    (h' : Under nodes id parent' label') : parent = parent' ∧ label = label' := by
  obtain ⟨node, found, above, labelled⟩ := h
  obtain ⟨node', found', above', labelled'⟩ := h'
  obtain rfl := Option.some.inj (found.symm.trans found')
  exact ⟨Option.some.inj (above.symm.trans above'), Option.some.inj (labelled.symm.trans labelled')⟩

theorem spells_unique (linked : Linked nodes) (h : Spells nodes id chars)
    (h' : Spells nodes id other) : chars = other := by
  induction h generalizing other with
  | root =>
    cases h' with
    | root => rfl
    | step _ under => exact absurd under linked.not_under_zero
  | step above under ih =>
    cases h' with
    | root => exact absurd under linked.not_under_zero
    | step above' under' =>
      obtain ⟨rfl, rfl⟩ := under_unique under under'
      rw [ih above']

theorem child?_eq_some_iff (linked : Linked nodes) :
    child? nodes parent label = some id ↔ Under nodes id parent label := by
  rw [← linked.edge_iff, child?, Option.bind_eq_some_iff]
  exact exists_congr fun node => and_congr_right fun found =>
    lookup_eq_some_iff_mem (linked.distinct found)

theorem follow_eq_some_iff (linked : Linked nodes) :
    follow nodes chars = some id ↔ Spells nodes id chars := by
  induction chars using List.reverseRecOn generalizing id with
  | nil =>
    rw [spells_nil_iff, eq_comm]
    exact Option.some_inj
  | append_singleton chars label ih =>
    rw [spells_concat_iff, follow, List.foldlM_append]
    simp only [← ih, ← linked.child?_eq_some_iff, follow]
    simp [Option.bind_eq_some_iff]

theorem spells_inj (linked : Linked nodes) {id' : Nat} (h : Spells nodes id chars)
    (h' : Spells nodes id' chars) : id = id' :=
  Option.some.inj ((linked.follow_eq_some_iff.2 h).symm.trans (linked.follow_eq_some_iff.2 h'))

end Linked

/-! ## Opening a child -/

def withEdge (parent : Nat) (edge : Char × Nat) (id : Nat) (node : Node) : Node :=
  { node with edges := node.edges ++ if id = parent then [edge] else [] }

section

variable {above : Node} (found : nodes[parent]? = some above) (label : Char)

include found

theorem getElem?_openChild (id : Nat) :
    (openChild nodes parent label)[id]? =
      if id = nodes.size then some ⟨some label, none, some parent, above.depth + 1, []⟩
      else nodes[id]?.map (withEdge parent (label, nodes.size) id) := by
  rw [openChild, Array.getElem?_push, Array.size_modify, found, Array.getElem?_modify]
  split
  · rfl
  · cases nodes[id]? with
    | none => split <;> rfl
    | some node =>
      by_cases here : id = parent
      · rw [if_pos here.symm, Option.map_some, Option.map_some, withEdge, if_pos here]
      · rw [if_neg (Ne.symm here), Option.map_some, withEdge, if_neg here, List.append_nil]

theorem getElem?_openChild_size :
    (openChild nodes parent label)[nodes.size]? =
      some ⟨some label, none, some parent, above.depth + 1, []⟩ := by
  rw [getElem?_openChild found, if_pos rfl]

theorem getElem?_openChild_of_some {node : Node} (present : nodes[id]? = some node) :
    (openChild nodes parent label)[id]? = some (withEdge parent (label, nodes.size) id node) := by
  rw [getElem?_openChild found, if_neg, present, Option.map_some]
  exact Nat.ne_of_lt (Array.getElem?_eq_some_iff.1 present).1

theorem getElem?_openChild_of_ne (inside : id < nodes.size) (differs : id ≠ parent) :
    (openChild nodes parent label)[id]? = nodes[id]? := by
  rw [getElem?_openChild_of_some found label (Array.getElem?_eq_getElem inside), withEdge,
    if_neg differs, List.append_nil, Array.getElem?_eq_getElem inside]

theorem openChild_cases {node : Node} (present : (openChild nodes parent label)[id]? = some node) :
    (id = nodes.size ∧ node = ⟨some label, none, some parent, above.depth + 1, []⟩) ∨
      ∃ old, nodes[id]? = some old ∧ node = withEdge parent (label, nodes.size) id old := by
  rw [getElem?_openChild found] at present
  split at present
  · next new => exact .inl ⟨new, (Option.some.inj present).symm⟩
  · obtain ⟨old, known, rfl⟩ := Option.map_eq_some_iff.1 present
    exact .inr ⟨old, known, rfl⟩

theorem under_openChild_iff {other : Nat} {c : Char} :
    Under (openChild nodes parent label) id other c ↔
      Under nodes id other c ∨ id = nodes.size ∧ other = parent ∧ c = label := by
  constructor
  · rintro ⟨node, present, above, labelled⟩
    rcases openChild_cases found label present with ⟨rfl, rfl⟩ | ⟨old, known, rfl⟩
    · exact .inr ⟨rfl, (Option.some.inj above).symm, (Option.some.inj labelled).symm⟩
    · exact .inl ⟨old, known, above, labelled⟩
  · rintro (⟨node, present, above, labelled⟩ | ⟨rfl, rfl, rfl⟩)
    · exact ⟨_, getElem?_openChild_of_some found label present, above, labelled⟩
    · exact ⟨_, getElem?_openChild_size found c, rfl, rfl⟩

theorem edge_openChild_iff {other : Nat} {c : Char} :
    Edge (openChild nodes parent label) other c id ↔
      Edge nodes other c id ∨ id = nodes.size ∧ other = parent ∧ c = label := by
  constructor
  · rintro ⟨node, present, member⟩
    rcases openChild_cases found label present with ⟨rfl, rfl⟩ | ⟨old, known, rfl⟩
    · cases member
    · rcases List.mem_append.1 member with member | member
      · exact .inl ⟨old, known, member⟩
      · split at member
        · next here =>
          obtain ⟨rfl, rfl⟩ := Prod.mk.inj (List.mem_singleton.1 member)
          exact .inr ⟨rfl, here, rfl⟩
        · cases member
  · rintro (⟨node, present, member⟩ | ⟨rfl, rfl, rfl⟩)
    · exact ⟨_, getElem?_openChild_of_some found label present, List.mem_append_left _ member⟩
    · refine ⟨_, getElem?_openChild_of_some found c found, List.mem_append_right _ ?_⟩
      rw [if_pos rfl]
      exact List.mem_singleton_self _

theorem nameOf_openChild (id : Nat) :
    nameOf (openChild nodes parent label) id = nameOf nodes id := by
  cases present : nodes[id]? with
  | none =>
    rw [nameOf, nameOf, present, getElem?_openChild found, present]
    split <;> rfl
  | some node => rw [nameOf, nameOf, present, getElem?_openChild_of_some found label present]; rfl

theorem Linked.openChild (linked : Linked nodes) (missing : child? nodes parent label = none) :
    Linked (openChild nodes parent label) where
  root := by
    obtain ⟨root, present, root_eqs⟩ := linked.root
    exact ⟨_, getElem?_openChild_of_some found label present, root_eqs⟩
  parent {id node} present below := by
    rcases openChild_cases found label present with ⟨rfl, rfl⟩ | ⟨old, known, rfl⟩
    · exact ⟨parent, _, label, rfl, rfl, (Array.getElem?_eq_some_iff.1 found).1,
        getElem?_openChild_of_some found label found, rfl⟩
    · obtain ⟨parent', above', label', parent_eq, label_eq, less, found', depth_eq⟩ :=
        linked.parent known below
      exact ⟨parent', _, label', parent_eq, label_eq, less,
        getElem?_openChild_of_some found label found', depth_eq⟩
  edge_iff parent' label' id := by
    rw [edge_openChild_iff found, under_openChild_iff found, linked.edge_iff]
  distinct {id node} present := by
    rcases openChild_cases found label present with ⟨rfl, rfl⟩ | ⟨old, known, rfl⟩
    · exact List.nodup_nil
    · rw [withEdge]
      split
      · next here =>
        subst here
        obtain rfl := Option.some.inj (found.symm.trans known)
        rw [child?, found, Option.bind_some, List.lookup_eq_none_iff] at missing
        rw [List.map_append, List.nodup_append]
        refine ⟨linked.distinct found, List.pairwise_singleton _ _, ?_⟩
        intro used member fresh new same
        obtain ⟨edge, present, rfl⟩ := List.mem_map.1 member
        have differs := missing edge present
        rw [same, List.mem_singleton.1 new] at differs
        simp at differs
      · rw [List.append_nil]
        exact linked.distinct known

end

/-! ## Marking the end of a name -/

def withName (id : Nat) (name : String) (other : Nat) (node : Node) : Node :=
  { node with name := if other = id then some name else node.name }

theorem getElem?_markEnd (nodes : Array Node) (id : Nat) (name : String) (other : Nat) :
    (markEnd nodes id name)[other]? = nodes[other]?.map (withName id name other) := by
  rw [markEnd, Array.getElem?_modify]
  cases nodes[other]? with
  | none => split <;> rfl
  | some node =>
    by_cases here : other = id
    · rw [if_pos here.symm, Option.map_some, Option.map_some, withName, if_pos here]
    · rw [if_neg (Ne.symm here), Option.map_some, withName, if_neg here]

theorem getElem?_markEnd_of_some {last : Nat} {node : Node} (present : nodes[id]? = some node)
    (name : String) : (markEnd nodes last name)[id]? = some (withName last name id node) := by
  rw [getElem?_markEnd, present, Option.map_some]

theorem getElem?_markEnd_of_ne {last : Nat} (differs : id ≠ last) (name : String) :
    (markEnd nodes last name)[id]? = nodes[id]? := by
  rw [markEnd, Array.getElem?_modify, if_neg differs.symm]

theorem exists_of_markEnd {last : Nat} {name : String} {node : Node}
    (present : (markEnd nodes last name)[id]? = some node) :
    ∃ old, nodes[id]? = some old ∧ node = withName last name id old := by
  rw [getElem?_markEnd] at present
  obtain ⟨old, known, rfl⟩ := Option.map_eq_some_iff.1 present
  exact ⟨old, known, rfl⟩

theorem under_markEnd_iff {last : Nat} {name : String} :
    Under (markEnd nodes last name) id parent label ↔ Under nodes id parent label := by
  constructor
  · rintro ⟨node, present, links⟩
    obtain ⟨old, known, rfl⟩ := exists_of_markEnd present
    exact ⟨old, known, links⟩
  · rintro ⟨node, present, links⟩
    exact ⟨_, getElem?_markEnd_of_some present name, links⟩

theorem edge_markEnd_iff {last : Nat} {name : String} :
    Edge (markEnd nodes last name) parent label id ↔ Edge nodes parent label id := by
  constructor
  · rintro ⟨node, present, member⟩
    obtain ⟨old, known, rfl⟩ := exists_of_markEnd present
    exact ⟨old, known, member⟩
  · rintro ⟨node, present, member⟩
    exact ⟨_, getElem?_markEnd_of_some present name, member⟩

theorem spells_markEnd_iff {last : Nat} {name : String} :
    Spells (markEnd nodes last name) id chars ↔ Spells nodes id chars :=
  ⟨.imp under_markEnd_iff.1, .imp under_markEnd_iff.2⟩

theorem nameOf_markEnd {last : Nat} (inside : last < nodes.size) (name : String) (id : Nat) :
    nameOf (markEnd nodes last name) id = if id = last then some name else nameOf nodes id := by
  rw [nameOf, getElem?_markEnd, nameOf]
  by_cases here : id = last
  · subst here
    rw [Array.getElem?_eq_getElem inside, if_pos rfl]
    simp [withName]
  · cases nodes[id]? <;> simp [withName, here]

theorem Linked.markEnd (linked : Linked nodes) (last : Nat) (name : String) :
    Linked (markEnd nodes last name) where
  root := by
    obtain ⟨root, present, root_eqs⟩ := linked.root
    exact ⟨_, getElem?_markEnd_of_some present name, root_eqs⟩
  parent {id node} present below := by
    obtain ⟨old, known, rfl⟩ := exists_of_markEnd present
    obtain ⟨parent, above, label, parent_eq, label_eq, less, found, depth_eq⟩ :=
      linked.parent known below
    exact ⟨parent, _, label, parent_eq, label_eq, less, getElem?_markEnd_of_some found name,
      depth_eq⟩
  edge_iff parent label id := by
    rw [edge_markEnd_iff, under_markEnd_iff, linked.edge_iff]
  distinct {id node} present := by
    obtain ⟨old, known, rfl⟩ := exists_of_markEnd present
    show (old.edges.map Prod.fst).Nodup
    exact linked.distinct known

/-! ## Following a name -/

/-- Where a walk ends, with all that it may have changed. A node that it did not find before has no
name yet. -/
structure Walked (nodes : Array Node) (chars : List Char) (grown : Array Node) (last : Nat) :
    Prop where
  linked : Linked grown
  size_le : nodes.size ≤ grown.size
  spells : Spells grown last chars
  kept {id : Nat} {other : List Char} (old : Spells nodes id other) : Spells grown id other
  nameOf_eq (id : Nat) : nameOf grown id = nameOf nodes id
  opened {id : Nat} (inside : id < grown.size) (new : nodes.size ≤ id) :
    ∃ other, Spells grown id other ∧ other <+: chars
  eq_or_new : grown = nodes ∨ nodes.size ≤ last

theorem Linked.lt_of_under (linked : Linked nodes) (under : Under nodes id parent label) :
    parent < id := by
  have below : id ≠ 0 := fun zero => linked.not_under_zero (zero ▸ under)
  obtain ⟨node, found, above, -⟩ := under
  obtain ⟨other, -, -, above', -, less, -⟩ := linked.parent found below
  rwa [Option.some.inj (above.symm.trans above')]

theorem size_openChild (nodes : Array Node) (parent : Nat) (label : Char) :
    (openChild nodes parent label).size = nodes.size + 1 := by
  rw [openChild, Array.size_push, Array.size_modify]

theorem Walked.follow {last next : Nat} (h : Walked nodes chars grown last)
    (found : child? grown last label = some next) :
    Walked nodes (chars ++ [label]) grown next := by
  have under := h.linked.child?_eq_some_iff.1 found
  refine ⟨h.linked, h.size_le, h.spells.step under, h.kept, h.nameOf_eq, ?_, ?_⟩
  · intro id inside new
    obtain ⟨other, spells, onWay⟩ := h.opened inside new
    exact ⟨other, spells, onWay.trans (List.prefix_append _ _)⟩
  · refine h.eq_or_new.imp_right fun new => ?_
    exact Nat.le_trans new (Nat.le_of_lt (h.linked.lt_of_under under))

theorem Walked.open {last : Nat} (h : Walked nodes chars grown last)
    (missing : child? grown last label = none) :
    Walked nodes (chars ++ [label]) (openChild grown last label) grown.size := by
  obtain ⟨above, found⟩ : ∃ above, grown[last]? = some above :=
    ⟨_, Array.getElem?_eq_getElem (h.linked.lt_size_of_spells h.spells)⟩
  have keeps {id : Nat} {other : List Char} (old : Spells grown id other) :
      Spells (openChild grown last label) id other :=
    old.imp fun under => (under_openChild_iff found label).2 (.inl under)
  have spells : Spells (openChild grown last label) grown.size (chars ++ [label]) :=
    (keeps h.spells).step ((under_openChild_iff found label).2 (.inr ⟨rfl, rfl, rfl⟩))
  refine ⟨h.linked.openChild found label missing, ?_, spells, fun old => keeps (h.kept old), ?_, ?_,
    .inr h.size_le⟩
  · rw [size_openChild]
    exact Nat.le_succ_of_le h.size_le
  · exact fun id => (nameOf_openChild found label id).trans (h.nameOf_eq id)
  · intro id inside new
    rw [size_openChild] at inside
    rcases Nat.lt_succ_iff_lt_or_eq.1 inside with before | rfl
    · obtain ⟨other, spelled, onWay⟩ := h.opened before new
      exact ⟨other, keeps spelled, onWay.trans (List.prefix_append _ _)⟩
    · exact ⟨_, spells, List.prefix_rfl⟩

theorem Linked.walked (linked : Linked nodes) (chars : List Char) :
    ∃ grown last, chars.foldl descend (nodes, 0) = (grown, last) ∧
      Walked nodes chars grown last := by
  induction chars using List.reverseRecOn with
  | nil =>
    exact ⟨nodes, 0, rfl, linked, Nat.le_refl _, .root, id, fun _ => rfl,
      fun inside new => absurd inside (Nat.not_lt.2 new), .inl rfl⟩
  | append_singleton chars label ih =>
    obtain ⟨grown, last, done, walked⟩ := ih
    rw [List.foldl_append, done, List.foldl_cons, List.foldl_nil, descend]
    cases found : child? grown last label with
    | some next => exact ⟨grown, next, rfl, walked.follow found⟩
    | none => exact ⟨_, _, rfl, walked.open found⟩

/-! ## Inserting a name -/

theorem lt_size_of_nameOf {name : String} (h : nameOf nodes id = some name) : id < nodes.size := by
  obtain ⟨node, found, -⟩ := Option.bind_eq_some_iff.1 h
  exact (Array.getElem?_eq_some_iff.1 found).1

theorem Named.refused (linked : Linked nodes) (h : Named nodes names) {name : String}
    (member : name ∈ names) :
    insertInPlace nodes name = (nodes, .error (.duplicateName name)) := by
  have nonempty : name ≠ "" := fun empty => h.nonempty (empty ▸ member)
  obtain ⟨grown, last, done, walked⟩ := linked.walked name.toList
  obtain ⟨id, named⟩ := h.marked member
  have ends : id = last := walked.linked.spells_inj (walked.kept (h.spells named).1) walked.spells
  subst ends
  -- A node opened on the way would have no name yet.
  have same : grown = nodes := by
    refine walked.eq_or_new.resolve_right fun new => ?_
    exact Nat.not_lt.2 new (lt_size_of_nameOf named)
  subst same
  rw [insertInPlace, if_neg nonempty, done]
  simp only [named]

theorem Walked.unnamed {last : Nat} {name : String} (walked : Walked nodes name.toList grown last)
    (h : Named nodes names) (fresh : name ∉ names) : nameOf grown last = none := by
  apply Option.eq_none_iff_forall_ne_some.2
  intro other named
  rw [walked.nameOf_eq] at named
  obtain ⟨spells, member⟩ := h.spells named
  have same := walked.linked.spells_unique (walked.kept spells) walked.spells
  exact fresh (String.toList_inj.1 same ▸ member)

theorem Walked.named_markEnd {last : Nat} {name : String}
    (walked : Walked nodes name.toList grown last) (h : Named nodes names) (nonempty : name ≠ "")
    (fresh : name ∉ names) : Named (markEnd grown last name) (names ++ [name]) := by
  have inside := walked.linked.lt_size_of_spells walked.spells
  refine ⟨?_, ?_, ?_, ?_⟩
  · intro id other named
    rw [nameOf_markEnd inside] at named
    rw [spells_markEnd_iff]
    split at named
    · next here =>
      obtain rfl := Option.some.inj named
      exact ⟨here ▸ walked.spells, List.mem_append_right _ (List.mem_singleton_self _)⟩
    · rw [walked.nameOf_eq] at named
      obtain ⟨spells, member⟩ := h.spells named
      exact ⟨walked.kept spells, List.mem_append_left _ member⟩
  · intro other member
    rcases List.mem_append.1 member with member | member
    · obtain ⟨id, named⟩ := h.marked member
      rw [← walked.nameOf_eq] at named
      have elsewhere : id ≠ last := by
        rintro rfl
        cases (walked.unnamed h fresh).symm.trans named
      exact ⟨id, by rw [nameOf_markEnd inside, if_neg elsewhere, named]⟩
    · rw [List.mem_singleton.1 member]
      exact ⟨last, by rw [nameOf_markEnd inside, if_pos rfl]⟩
  · intro id within below
    rw [markEnd, Array.size_modify] at within
    rcases Nat.lt_or_ge id nodes.size with old | new
    · obtain ⟨chars, other, spells, member, onWay⟩ := h.used old below
      exact ⟨chars, other, spells_markEnd_iff.2 (walked.kept spells),
        List.mem_append_left _ member, onWay⟩
    · obtain ⟨chars, spells, onWay⟩ := walked.opened within new
      exact ⟨chars, name, spells_markEnd_iff.2 spells,
        List.mem_append_right _ (List.mem_singleton_self _), onWay⟩
  · rw [List.mem_append, List.mem_singleton]
    exact fun member => member.elim h.nonempty nonempty.symm

theorem Named.accepted (linked : Linked nodes) (h : Named nodes names) {name : String}
    (nonempty : name ≠ "") (fresh : name ∉ names) :
    ∃ grown last, insertInPlace nodes name = (grown, .ok last) ∧ Linked grown ∧
      Named grown (names ++ [name]) := by
  obtain ⟨grown, last, done, walked⟩ := linked.walked name.toList
  refine ⟨markEnd grown last name, last, ?_, walked.linked.markEnd last name,
    walked.named_markEnd h nonempty fresh⟩
  rw [insertInPlace, if_neg nonempty, done]
  simp only [walked.unnamed h fresh]

theorem rootOnly_getElem? {node : Node} (h : rootOnly[id]? = some node) :
    id = 0 ∧ node = ⟨none, none, none, 0, []⟩ := by
  cases id with
  | zero => exact ⟨rfl, (Option.some.inj h).symm⟩
  | succ id => cases h

theorem linked_rootOnly : Linked rootOnly where
  root := ⟨_, rfl, rfl, rfl, rfl⟩
  parent found below := absurd (rootOnly_getElem? found).1 below
  edge_iff parent label id := by
    constructor
    · rintro ⟨node, found, edge⟩
      rw [(rootOnly_getElem? found).2] at edge
      cases edge
    · rintro ⟨node, found, above, -⟩
      rw [(rootOnly_getElem? found).2] at above
      cases above
  distinct found := by
    rw [(rootOnly_getElem? found).2]
    exact List.nodup_nil

theorem named_rootOnly : Named rootOnly [] where
  spells named := by
    obtain ⟨node, found, named⟩ := Option.bind_eq_some_iff.1 named
    rw [(rootOnly_getElem? found).2] at named
    cases named
  marked := nofun
  used inside below := absurd (Nat.lt_one_iff.1 inside) below
  nonempty := nofun

end TrieDispatch.Trie
