import Mathlib.Data.List.Dedup
import Mathlib.Data.List.Infix
import TrieDispatch.Proofs.Trie.Rows

/-! # Inserting names one after the other -/

namespace TrieDispatch.Trie

def accepted (names : List String) : List String :=
  ((names.zip (empty.insertEach names).2).filter fun attempt => attempt.2.isOk).map Prod.fst

/-- What the names begin with, each string once and without the empty one. -/
def beginnings (names : List String) : List (List Char) :=
  ((names.flatMap fun name => name.toList.inits).filter fun chars => !chars.isEmpty).dedup

def nodeOf (nodes : Array Node) (chars : List Char) : Nat := (follow nodes chars).getD 0

variable {nodes : Array Node} {trie : Trie} {names : List String} {id : Nat} {label : Char}
  {chars : List Char} {name query : String}

theorem mem_beginnings_iff :
    chars ∈ beginnings names ↔ chars ≠ [] ∧ ∃ name ∈ names, chars <+: name.toList := by
  simp [beginnings, and_comm]

/-! ## What a table with the names shows -/

theorem exists_spells_of_append {more : List Char} (h : Spells nodes id (chars ++ more)) :
    ∃ earlier, Spells nodes earlier chars := by
  induction more using List.reverseRecOn generalizing id with
  | nil => exact ⟨id, by rwa [List.append_nil] at h⟩
  | append_singleton more label ih =>
    rw [← List.append_assoc, spells_concat_iff] at h
    obtain ⟨parent, above, -⟩ := h
    exact ih above

namespace Named

theorem nameOf_zero (linked : Linked nodes) (h : Named nodes names) : nameOf nodes 0 = none := by
  apply Option.eq_none_iff_forall_ne_some.2
  intro name named
  obtain ⟨spells, member⟩ := h.spells named
  have empty := linked.spells_unique spells .root
  exact h.nonempty (String.toList_eq_nil_iff.1 empty ▸ member)

theorem exists_spells_iff (linked : Linked nodes) (h : Named nodes names) :
    (∃ id, Spells nodes id chars) ↔ chars = [] ∨ ∃ name ∈ names, chars <+: name.toList := by
  constructor
  · rintro ⟨id, spells⟩
    by_cases root : id = 0
    · exact .inl (linked.spells_unique spells (root ▸ .root))
    · obtain ⟨other, name, spells', member, begins⟩ :=
        h.used (linked.lt_size_of_spells spells) root
      exact .inr ⟨name, member, linked.spells_unique spells spells' ▸ begins⟩
  · rintro (rfl | ⟨name, member, more, begins⟩)
    · exact ⟨0, .root⟩
    · obtain ⟨id, named⟩ := h.marked member
      have spells := (h.spells named).1
      rw [← begins] at spells
      exact exists_spells_of_append spells

theorem mem_iff (linked : Linked nodes) (h : Named nodes names) :
    query ∈ names ↔
      ∃ id name, follow nodes query.toList = some id ∧ nameOf nodes id = some name := by
  constructor
  · intro member
    obtain ⟨id, named⟩ := h.marked member
    exact ⟨id, query, linked.follow_eq_some_iff.2 (h.spells named).1, named⟩
  · rintro ⟨id, name, reached, named⟩
    obtain ⟨spells, member⟩ := h.spells named
    have same := linked.spells_unique spells (linked.follow_eq_some_iff.1 reached)
    exact String.toList_inj.1 same ▸ member

theorem ended (linked : Linked nodes) (h : Named nodes names) {node : Node}
    (found : nodes[id]? = some node) (below : id ≠ 0) (leaf : node.edges = []) :
    node.name.isSome = true := by
  obtain ⟨chars, name, spells, member, more, begins⟩ :=
    h.used (Array.getElem?_eq_some_iff.1 found).1 below
  obtain ⟨last, named⟩ := h.marked member
  have spells' := (h.spells named).1
  cases more with
  | nil =>
    rw [← begins, List.append_nil] at spells'
    obtain rfl := linked.spells_inj spells spells'
    rw [nameOf, found, Option.bind_some] at named
    rw [named, Option.isSome_some]
  | cons label more =>
    rw [← begins, List.append_cons] at spells'
    obtain ⟨next, further⟩ := exists_spells_of_append spells'
    obtain ⟨parent, above, under⟩ := spells_concat_iff.1 further
    obtain rfl := linked.spells_inj spells above
    obtain ⟨node', found', edge⟩ := (linked.edge_iff _ _ _).2 under
    obtain rfl := Option.some.inj (found.symm.trans found')
    rw [leaf] at edge
    cases edge

theorem spells_nodeOf (linked : Linked nodes) (h : Named nodes names)
    (member : chars ∈ beginnings names) : Spells nodes (nodeOf nodes chars) chars := by
  obtain ⟨id, spells⟩ := (h.exists_spells_iff linked).2 (.inr (mem_beginnings_iff.1 member).2)
  rwa [nodeOf, linked.follow_eq_some_iff.2 spells, Option.getD_some]

theorem mem_map_nodeOf_iff (linked : Linked nodes) (h : Named nodes names) :
    id ∈ (beginnings names).map (nodeOf nodes) ↔ id ≠ 0 ∧ id < nodes.size := by
  rw [List.mem_map]
  constructor
  · rintro ⟨chars, member, rfl⟩
    have spells := h.spells_nodeOf linked member
    refine ⟨fun zero => (mem_beginnings_iff.1 member).1 ?_, linked.lt_size_of_spells spells⟩
    rw [zero] at spells
    exact linked.spells_unique spells .root
  · rintro ⟨below, inside⟩
    obtain ⟨chars, name, spells, member, begins⟩ := h.used inside below
    have nonempty : chars ≠ [] := by
      rintro rfl
      exact below (spells_nil_iff.1 spells)
    have member := mem_beginnings_iff.2 ⟨nonempty, name, member, begins⟩
    exact ⟨chars, member, linked.spells_inj (h.spells_nodeOf linked member) spells⟩

/-- There is one node for each beginning of a name, and the root. -/
theorem size_eq (linked : Linked nodes) (h : Named nodes names) :
    nodes.size = 1 + (beginnings names).length := by
  have positive := linked.size_pos
  have distinct : ((beginnings names).map (nodeOf nodes)).Nodup := by
    refine List.Nodup.map_on (fun chars member other member' same => ?_) (List.nodup_dedup _)
    exact linked.spells_unique (h.spells_nodeOf linked member)
      (same ▸ h.spells_nodeOf linked member')
  have numbers : ((beginnings names).map (nodeOf nodes)).Perm (List.range' 1 (nodes.size - 1)) := by
    refine (List.perm_ext_iff_of_nodup distinct List.nodup_range').2 fun id => ?_
    rw [h.mem_map_nodeOf_iff linked, List.mem_range'_1]
    omega
  have length := numbers.length_eq
  rw [List.length_map, List.length_range'] at length
  omega

end Named

/-! ## Runs -/

theorem insertEach_concat (trie : Trie) (names : List String) (name : String) :
    trie.insertEach (names ++ [name]) =
      match (trie.insertEach names).1.insert name with
      | .ok (grown, node) => (grown, (trie.insertEach names).2 ++ [.ok node])
      | .error error =>
        ((trie.insertEach names).1, (trie.insertEach names).2 ++ [.error error]) := by
  induction names generalizing trie with
  | nil =>
    cases last : trie.insert name <;> simp only [List.nil_append, insertEach, last]
  | cons first names ih =>
    cases inserted : trie.insert first with
    | ok result =>
      cases last : (result.1.insertEach names).1.insert name <;>
        simp only [List.cons_append, insertEach, inserted, ih, last]
    | error error =>
      cases last : (trie.insertEach names).1.insert name <;>
        simp only [List.cons_append, insertEach, inserted, ih, last]

theorem insertEach_of_error {error : CompileError}
    (failed : (trie.insertEach names).1.insert name = .error error) :
    (trie.insertEach (names ++ [name])).1 = (trie.insertEach names).1 := by
  rw [insertEach_concat, failed]

theorem insertEach_of_ok {grown : Trie} {node : Nat}
    (inserted : (trie.insertEach names).1.insert name = .ok (grown, node)) :
    (trie.insertEach (names ++ [name])).1 = grown := by
  rw [insertEach_concat, inserted]

theorem length_insertEach (trie : Trie) (names : List String) :
    (trie.insertEach names).2.length = names.length := by
  induction names generalizing trie with
  | nil => rfl
  | cons name names ih =>
    rw [insertEach]
    cases trie.insert name <;> simp [ih]

theorem accepted_concat (names : List String) (name : String) :
    accepted (names ++ [name]) =
      match (empty.insertEach names).1.insert name with
      | .ok _ => accepted names ++ [name]
      | .error _ => accepted names := by
  have lengths := length_insertEach empty names
  rw [accepted, insertEach_concat]
  cases (empty.insertEach names).1.insert name with
  | ok result =>
    simp only [List.zip_append lengths.symm]
    simp [accepted, Except.isOk, Except.toBool]
  | error error =>
    simp only [List.zip_append lengths.symm]
    simp [accepted, Except.isOk, Except.toBool]

/-- The table of the trie is linked and holds the names. -/
structure Tabled (trie : Trie) (names : List String) : Prop where
  represents : Represents trie.nodes trie
  linked : Linked trie.nodes
  named : Named trie.nodes names

theorem tabled_empty : Tabled empty [] := by
  have rows : empty.nodes = rootOnly := represents_empty.nodes_eq
  exact ⟨rows.symm ▸ represents_empty, rows.symm ▸ linked_rootOnly, rows.symm ▸ named_rootOnly⟩

/-- An empty name and one that is held are refused without a trace; any other name is added. In
place of the table the outcome is the same. -/
theorem Tabled.insert_cases (h : trie.Tabled names) (name : String) :
    (name = "" ∧ trie.insert name = .error .emptyName ∧
      insertInPlace trie.nodes name = (trie.nodes, .error .emptyName)) ∨
    (name ∈ names ∧ trie.insert name = .error (.duplicateName name) ∧
      insertInPlace trie.nodes name = (trie.nodes, .error (.duplicateName name))) ∨
    (name ≠ "" ∧ name ∉ names ∧ ∃ grown node, trie.insert name = .ok (grown, node) ∧
      insertInPlace trie.nodes name = (grown.nodes, .ok node) ∧
      grown.Tabled (names ++ [name])) := by
  have refused {error : CompileError}
      (failed : insertInPlace trie.nodes name = (trie.nodes, .error error)) :
      trie.insert name = .error error := by
    cases result : trie.insert name with
    | ok pair =>
      obtain ⟨after, inserted, -⟩ := h.represents.insert_ok result
      cases failed.symm.trans inserted
    | error other =>
      obtain ⟨after, failed'⟩ := h.represents.insert_error result
      rw [Except.error.inj (Prod.mk.inj (failed.symm.trans failed')).2]
  by_cases empty : name = ""
  · have failed : insertInPlace trie.nodes name = (trie.nodes, .error .emptyName) := by
      rw [insertInPlace, if_pos empty]
    exact .inl ⟨empty, refused failed, failed⟩
  by_cases member : name ∈ names
  · have failed := h.named.refused h.linked member
    exact .inr (.inl ⟨member, refused failed, failed⟩)
  obtain ⟨after, last, inserted, linked, named⟩ := h.named.accepted h.linked empty member
  cases result : trie.insert name with
  | error error =>
    obtain ⟨other, failed⟩ := h.represents.insert_error result
    cases failed.symm.trans inserted
  | ok pair =>
    obtain ⟨grown, node⟩ := pair
    obtain ⟨other, inserted', represents⟩ := h.represents.insert_ok result
    obtain ⟨rfl, -⟩ := Prod.mk.inj (inserted'.symm.trans inserted)
    obtain rfl := represents.nodes_eq
    exact .inr (.inr ⟨empty, member, grown, node, rfl, inserted', represents, linked, named⟩)

theorem Tabled.nodup_names (h : trie.Tabled names) : trie.names.Nodup := by
  have distinct := (List.nodup_cons.1 h.represents.lodged.distinct).2
  rw [Trie.names, h.represents.lodged.names_eq]
  refine distinct.filterMap fun id other name named named' => ?_
  exact h.linked.spells_inj (h.named.spells named).1 (h.named.spells named').1

theorem Tabled.emptyName_iff (h : trie.Tabled names) :
    trie.insert name = .error .emptyName ↔ name = "" := by
  rcases h.insert_cases name with ⟨empty, failed, -⟩ | ⟨member, failed, -⟩ |
    ⟨nonempty, -, grown, node, inserted, -⟩
  · exact ⟨fun _ => empty, fun _ => failed⟩
  · rw [failed]
    exact ⟨nofun, fun empty => absurd (empty ▸ member) h.named.nonempty⟩
  · rw [inserted]
    exact ⟨nofun, fun empty => absurd empty nonempty⟩

theorem Tabled.duplicateName_iff (h : trie.Tabled names) :
    trie.insert name = .error (.duplicateName name) ↔ name ∈ names := by
  rcases h.insert_cases name with ⟨empty, failed, -⟩ | ⟨member, failed, -⟩ |
    ⟨-, fresh, grown, node, inserted, -⟩
  · rw [failed]
    exact ⟨nofun, fun member => absurd (empty ▸ member) h.named.nonempty⟩
  · exact ⟨fun _ => member, fun _ => failed⟩
  · rw [inserted]
    exact ⟨nofun, fun member => absurd member fresh⟩

theorem Tabled.insert_error (h : trie.Tabled names) {error : CompileError}
    (refused : trie.insert name = .error error) :
    (error = .emptyName ∨ error = .duplicateName name) ∧
      insertInPlace trie.nodes name = (trie.nodes, .error error) := by
  rcases h.insert_cases name with ⟨-, failed, inPlace⟩ | ⟨-, failed, inPlace⟩ |
    ⟨-, -, grown, node, inserted, -⟩
  · obtain rfl := Except.error.inj (failed.symm.trans refused)
    exact ⟨.inl rfl, inPlace⟩
  · obtain rfl := Except.error.inj (failed.symm.trans refused)
    exact ⟨.inr rfl, inPlace⟩
  · cases inserted.symm.trans refused

theorem Tabled.insert_ok (h : trie.Tabled names) {grown : Trie} {node : Nat}
    (inserted : trie.insert name = .ok (grown, node)) :
    insertInPlace trie.nodes name = (grown.nodes, .ok node) := by
  rcases h.insert_cases name with ⟨-, failed, -⟩ | ⟨-, failed, -⟩ |
    ⟨-, -, grown', node', inserted', inPlace, -⟩
  · cases failed.symm.trans inserted
  · cases failed.symm.trans inserted
  · cases inserted.symm.trans inserted'
    exact inPlace

theorem tabled_insertEach (names : List String) :
    (empty.insertEach names).1.Tabled (accepted names) := by
  induction names using List.reverseRecOn with
  | nil => exact tabled_empty
  | append_singleton names name ih =>
    rw [insertEach_concat, accepted_concat]
    rcases ih.insert_cases name with ⟨-, failed, -⟩ | ⟨-, failed, -⟩ |
      ⟨-, -, grown, node, inserted, -, tabled⟩
    · rw [failed]
      exact ih
    · rw [failed]
      exact ih
    · rw [inserted]
      exact tabled

theorem Tabled.insertAll {earlier : List String} (h : trie.Tabled earlier) {grown : Trie}
    (done : names.foldlM (fun trie name => (·.1) <$> trie.insert name) trie = .ok grown) :
    grown.Tabled (earlier ++ names) := by
  induction names generalizing trie earlier with
  | nil =>
    obtain rfl := Except.ok.inj done
    rwa [List.append_nil]
  | cons name names ih =>
    rw [List.foldlM_cons] at done
    obtain ⟨next, mapped, done⟩ := bind_eq_ok_iff.1 done
    obtain ⟨pair, inserted, rfl⟩ := map_eq_ok_iff.1 mapped
    rcases h.insert_cases name with ⟨-, failed, -⟩ | ⟨-, failed, -⟩ |
      ⟨-, -, next, node, inserted', -, tabled⟩
    · cases failed.symm.trans inserted
    · cases failed.symm.trans inserted
    · obtain rfl := Except.ok.inj (inserted'.symm.trans inserted)
      rw [List.append_cons]
      exact ih tabled done

theorem tabled_ofNames (built : ofNames names = .ok trie) : trie.Tabled names :=
  tabled_empty.insertAll built

/-- After any insertions a name is refused just if it is empty or was accepted before, and a refusal
leaves every node as it was, also in place. Just the accepted names end at nodes, each where its
characters lead; their beginnings are what can be found, and there is one node for each. -/
theorem trie_of_insertions (names : List String) :
    let trie := (empty.insertEach names).1
    let nodes := trie.nodes
    (∀ name,
      (trie.insert name = .error .emptyName ↔ name = "") ∧
      (trie.insert name = .error (.duplicateName name) ↔ name ∈ accepted names) ∧
      (∀ error, trie.insert name = .error error →
        (error = .emptyName ∨ error = .duplicateName name) ∧
        (empty.insertEach (names ++ [name])).1 = trie ∧
        insertInPlace nodes name = (nodes, .error error)) ∧
      ∀ grown node, trie.insert name = .ok (grown, node) →
        (empty.insertEach (names ++ [name])).1 = grown ∧
        insertInPlace nodes name = (grown.nodes, .ok node)) ∧
    Linked nodes ∧
    nameOf nodes 0 = none ∧
    (∀ id name, nameOf nodes id = some name → Spells nodes id name.toList) ∧
    (∀ id node, nodes[id]? = some node → id ≠ 0 → node.edges = [] → node.name.isSome = true) ∧
    (∀ query, (∀ id, trie.find? query = some id ↔ Spells nodes id query.toList) ∧
      ((∃ id, trie.find? query = some id) ↔
        query = "" ∨ ∃ name ∈ accepted names, query.toList <+: name.toList) ∧
      (trie.contains query = true ↔ query ∈ accepted names)) ∧
    trie.size = nodes.size ∧
    trie.size = 1 + (beginnings (accepted names)).length := by
  intro trie nodes
  have tabled : trie.Tabled (accepted names) := tabled_insertEach names
  have spelled (query : String) (id : Nat) :
      trie.find? query = some id ↔ Spells nodes id query.toList := by
    rw [tabled.represents.find?_eq, tabled.linked.follow_eq_some_iff]
  refine ⟨fun name => ?_, tabled.linked, tabled.named.nameOf_zero tabled.linked,
    fun id name named => (tabled.named.spells named).1,
    fun id node found below leaf => tabled.named.ended tabled.linked found below leaf,
    fun query => ⟨spelled query, ?_, ?_⟩, tabled.represents.size_eq.symm, ?_⟩
  · refine ⟨tabled.emptyName_iff, tabled.duplicateName_iff, fun error failed => ?_,
      fun grown node inserted => ⟨insertEach_of_ok inserted, tabled.insert_ok inserted⟩⟩
    obtain ⟨errors, inPlace⟩ := tabled.insert_error failed
    exact ⟨errors, insertEach_of_error failed, inPlace⟩
  · rw [exists_congr (spelled query), tabled.named.exists_spells_iff tabled.linked,
      String.toList_eq_nil_iff]
  · rw [tabled.represents.contains_iff, tabled.named.mem_iff tabled.linked]
    refine ⟨And.right, fun reached => ⟨?_, reached⟩⟩
    rintro rfl
    exact tabled.named.nonempty ((tabled.named.mem_iff tabled.linked).2 reached)
  · rw [← tabled.represents.size_eq]
    exact tabled.named.size_eq tabled.linked

end TrieDispatch.Trie
