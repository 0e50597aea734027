import TrieDispatch.Proofs.Compiling
import TrieDispatch.Proofs.Program.Landings
import TrieDispatch.Proofs.Trie.Siblings

/-! # The trie as control flow -/

namespace TrieDispatch

open Program

open Trie (firstChild? nextSibling? Linked Named Under)

def landingOf (start : Nat → Nat) (epilogue : Nat) (node? : Option Nat) : Nat :=
  node?.elim epilogue start

/-- The code of a node in a program where each node begins at its start. -/
structure Placed (directory : Directory) (nodes : Array Trie.Node) (program : Program)
    (start : Nat → Nat) (epilogue id : Nat) (node : Trie.Node) : Prop where
  compares : ∃ label, node.label = some label ∧ program.Contains (start id)
    ((compareLabel label).set 4 (.branchTo (landingOf start epilogue (nextSibling? nodes id))))
  advances : program.Contains (start id + 5) advance
  calls : ∀ name, node.name = some name → ∃ position handler,
    directory.position? name = some position ∧ directory.handlers[position]? = some handler ∧
      program.Contains (start id + 9)
        (compareLength.set 2 (.branchTo (landingOf start epilogue (firstChild? nodes id))) ++
          (callHandler handler position ++ answer true))
  falls : node.name = none → ∃ child, firstChild? nodes id = some child ∧
    start child = start id + 9

/-- The first instruction of the node with the number, or the epilogue when there is no node. -/
def landingAt (number : Nat) (node? : Option Nat) : Landing :=
  node?.elim .epilogue fun _ => .subtree number

/-- What the branches of the node with the number wait for: the next sibling is numbered after the
whole subtree, the first child right after the node. -/
structure Numbered (nodes : Array Trie.Node) (sizes : Array Nat) (placeholders : Placeholders)
    (start : Nat → Nat) (number id : Nat) (node : Trie.Node) : Prop where
  sibling : ∃ size, sizes[id]? = some size ∧
    placeholders[start id + 4]? = some (landingAt (number + size) (nextSibling? nodes id))
  child : node.name.isSome → placeholders[start id + 11]? =
    some (landingAt (number + 1) (firstChild? nodes id))

namespace Forest

variable {directory : Directory} {nodes : Array Trie.Node} {program : Program}
  {start : Nat → Nat} {epilogue parent first id : Nat} {above node : Trie.Node}
  {before : List (Char × Nat)} {forest children siblings : Forest} {label : Char}
  {stored : Option String} {names : List String}

def Begins (directory : Directory) (start : Nat → Nat) (first : Nat) (forest : Forest) : Prop :=
  ∀ entry ∈ forest.starts directory first, start entry.1 = entry.2

theorem begins_cons_iff :
    (cons label id stored children siblings).Begins directory start first ↔ start id = first ∧
      children.Begins directory start (first + 9 + nameSize directory stored) ∧
      siblings.Begins directory start
        (first + 9 + nameSize directory stored + children.codeSize directory) := by
  simp only [Begins, starts, List.forall_mem_cons, List.forall_mem_append]

theorem Begins.landingOf_eq (h : forest.Begins directory start first) (epilogue : Nat) :
    landingOf start epilogue forest.tops.head? = if forest.isNil then epilogue else first := by
  cases forest with
  | nil => rfl
  | cons => exact (begins_cons_iff.1 h).1

section

variable (linked : Linked nodes) (named : Named nodes names)

include linked

theorem Lodged.placed_head
    (h : (cons label id stored children siblings).Lodged nodes parent above before)
    (places : Places directory epilogue program first label stored children siblings)
    (begins : (cons label id stored children siblings).Begins directory start first)
    (known : ∀ name, stored = some name → (directory.located? name).isSome)
    (goesOn : stored = none → children ≠ nil)
    (found : nodes[id]? = some node) :
    Placed directory nodes program start epilogue id node := by
  obtain rfl := Option.some.inj (h.row.symm.trans found)
  obtain ⟨own, lower, rest⟩ := begins_cons_iff.1 begins
  constructor
  · refine ⟨label, rfl, ?_⟩
    rw [h.nextSibling?_eq linked, rest.landingOf_eq, own]
    exact places.compare
  · rw [own]
    exact places.advance
  · intro name ends
    obtain ⟨⟨position, handler⟩, entry⟩ := Option.isSome_iff_exists.1 (known name ends)
    have ended : stored.bind directory.located? = some (position, handler) := by
      rw [show stored = some name from ends, Option.bind_some, entry]
    obtain ⟨placed, present⟩ := Directory.located?_eq_some entry
    refine ⟨position, handler, placed, present, ?_⟩
    have size : nameSize directory stored = 7 + 4 * handler.arity := by
      simp only [nameSize, ended]
    have code := places.named
    rw [nameCode_of_entry _ _ ended] at code
    rw [h.firstChild?_eq, lower.landingOf_eq, own, size]
    exact code
  · intro ends
    obtain rfl : stored = none := ends
    rw [h.firstChild?_eq]
    cases children with
    | nil => exact absurd rfl (goesOn rfl)
    | cons c child name below beside =>
      refine ⟨child, rfl, (begins_cons_iff.1 lower).1.trans ?_⟩
      rw [own]
      rfl

include named

theorem Lodged.placed (h : forest.Lodged nodes parent above before)
    (contains : program.Contains first (forest.code directory epilogue first))
    (begins : forest.Begins directory start first)
    (known : ∀ name ∈ forest.names, (directory.located? name).isSome) (member : id ∈ forest.ids)
    (found : nodes[id]? = some node) : Placed directory nodes program start epilogue id node := by
  induction forest generalizing parent above before first with
  | nil => cases member
  | cons label top stored children siblings below beside =>
    have places := places_of_contains contains
    obtain ⟨-, lower, rest⟩ := begins_cons_iff.1 begins
    rw [Forest.names, List.forall_mem_append, List.forall_mem_append] at known
    obtain ⟨own, lowerKnown, restKnown⟩ := known
    rw [ids, List.mem_cons, List.mem_append] at member
    rcases member with rfl | member | member
    · have under : Under nodes id parent label := ⟨_, h.row, rfl, rfl⟩
      have inside : id ≠ 0 := fun zero => linked.not_under_zero (zero ▸ under)
      have ownKnown : ∀ name, stored = some name → (directory.located? name).isSome :=
        fun name ends => own name (by simp [ends])
      refine h.placed_head linked places begins ownKnown ?_ found
      rintro rfl rfl
      cases named.ended linked h.row inside rfl
    · exact below h.below places.below lower lowerKnown member
    · exact beside h.beside places.beside rest restKnown member

end

theorem landing_eq (forest : Forest) (number : Nat) :
    forest.landing number = landingAt number forest.tops.head? := by
  cases forest <;> rfl

section

variable {sizes : Array Nat} {placeholders : Placeholders} {number index : Nat}
  (linked : Linked nodes)

include linked

theorem Lodged.numbered_head
    (h : (cons label id stored children siblings).Lodged nodes parent above before)
    (sized : (cons label id stored children siblings).Sized sizes) (begins : start id = first)
    (known : ∀ name, stored = some name → (directory.located? name).isSome)
    (placed : ∀ entry ∈ (cons label id stored children siblings).waits directory first number,
      placeholders[entry.1]? = some entry.2)
    (found : nodes[id]? = some node) :
    Numbered nodes sizes placeholders start number id node := by
  obtain rfl := Option.some.inj (h.row.symm.trans found)
  rw [waits, List.forall_mem_cons, List.forall_mem_append] at placed
  constructor
  · refine ⟨_, (sized_cons_iff.1 sized).1, ?_⟩
    rw [h.nextSibling?_eq linked, begins, ← landing_eq]
    exact placed.1
  · intro ends
    obtain ⟨name, stored_eq⟩ := Option.isSome_iff_exists.1 ends
    obtain ⟨entry, located⟩ := Option.isSome_iff_exists.1 (known name stored_eq)
    have ended : stored.bind directory.located? = some entry := by
      rw [show stored = some name from stored_eq, Option.bind_some, located]
    have own := placed.2.1
    rw [nameWaits, ended, List.forall_mem_singleton] at own
    rw [h.firstChild?_eq, begins, ← landing_eq]
    exact own

/-- The branches of a node wait for the numbers that the sizes give, the numbers of the forest
going upwards from `number`. -/
theorem Lodged.numbered (h : forest.Lodged nodes parent above before) (sized : forest.Sized sizes)
    (begins : forest.Begins directory start first)
    (known : ∀ name ∈ forest.names, (directory.located? name).isSome)
    (placed : ∀ entry ∈ forest.waits directory first number,
      placeholders[entry.1]? = some entry.2)
    (member : forest.ids[index]? = some id) (found : nodes[id]? = some node) :
    Numbered nodes sizes placeholders start (number + index) id node := by
  induction forest generalizing parent above before first number index with
  | nil => cases member
  | cons label top stored children siblings below beside =>
    obtain ⟨own, lower, rest⟩ := begins_cons_iff.1 begins
    obtain ⟨-, lowerSized, restSized⟩ := sized_cons_iff.1 sized
    rw [Forest.names, List.forall_mem_append, List.forall_mem_append] at known
    obtain ⟨ownKnown, lowerKnown, restKnown⟩ := known
    cases index with
    | zero =>
      obtain rfl : top = id := Option.some.inj member
      exact h.numbered_head linked sized own (fun name ends => ownKnown name (by simp [ends]))
        placed found
    | succ index =>
      rw [waits, List.forall_mem_cons, List.forall_mem_append, List.forall_mem_append] at placed
      obtain ⟨-, -, lowerPlaced, restPlaced⟩ := placed
      -- The preorder goes on with what is below the node and then with what is beside it.
      rw [ids, List.getElem?_cons_succ, List.getElem?_append, length_ids] at member
      split at member
      next inside =>
        have numbered := below h.below lowerSized lower lowerKnown lowerPlaced member
        rwa [Nat.add_right_comm, Nat.add_assoc] at numbered
      next outside =>
        have numbered := beside h.beside restSized rest restKnown restPlaced member
        have same : number + (1 + children.size) + (index - children.size) =
            number + (index + 1) := by omega
        rwa [same] at numbered

end

def startOf (directory : Directory) (forest : Forest) (first id : Nat) : Nat :=
  ((forest.starts directory first).lookup id).getD 0

theorem begins_startOf (distinct : forest.ids.Nodup) :
    forest.Begins directory (forest.startOf directory first) first := by
  rintro ⟨id, start⟩ member
  rw [← map_fst_starts forest first] at distinct
  rw [startOf, (Trie.lookup_eq_some_iff_mem distinct).2 member, Option.getD_some]

theorem Begins.map_ids (h : forest.Begins directory start first) :
    forest.ids.map start = (forest.starts directory first).map Prod.snd := by
  rw [← map_fst_starts forest first, List.map_map]
  exact List.map_congr_left h

end Forest

/-- The program of a trie whose names have handlers has the trie as its control flow. As emitted,
just the branches have placeholders and all of them wait, for the epilogue or for a subtree that
exists; the number of a node and the size of its subtree tell which. Resolved, every node is placed
at its start, all branches go forward, and the epilogue ends the program. -/
theorem control_flow {handlers : List Handler} {directory : Directory}
    (accepted : Directory.ofDistinct handlers = .ok directory) {names : List String}
    (known : ∀ name ∈ (Trie.empty.insertEach names).1.names, name ∈ handlers.map Handler.name) :
    let trie := (Trie.empty.insertEach names).1
    ∃ emission program start, Emission.ofTrie directory trie = .ok emission ∧
      (∀ position, position ∈ emission.placeholders ↔
        ∃ instr, emission.code[position]? = some instr ∧ instr.op = .branchNe) ∧
      (∀ (position : Nat) instr, emission.code[position]? = some instr → instr.op = .branchNe →
        instr.operand = .pending) ∧
      (∀ position number : Nat, emission.placeholders[position]? = some (Landing.subtree number) →
        number < emission.landings.starts.size) ∧
      emission.landings.starts.toList = trie.branches.ids.map start ∧
      (∀ (number id : Nat) node, trie.branches.ids[number]? = some id →
        trie.nodes[id]? = some node →
        Numbered trie.nodes trie.subtreeSizes emission.placeholders start number id node) ∧
      emission.code.resolve emission.landings emission.placeholders =
        (program, .ok emission.placeholders.size) ∧
      landingOf start emission.landings.epilogue (firstChild? trie.nodes 0) = prologue.length ∧
      (∀ id node, trie.nodes[id]? = some node → id ≠ 0 →
        Placed directory trie.nodes program start emission.landings.epilogue id node) ∧
      (∀ (position : Nat) instr, program[position]? = some instr → instr.op = .branchNe →
        ∃ target, instr.operand = .target target ∧ position < target) ∧
      program.Contains emission.landings.epilogue (answer false) ∧
      program.size = emission.landings.epilogue + 2 := by
  intro trie
  obtain ⟨few, distinct, rfl⟩ := Directory.eq_ofList_of_ofDistinct accepted
  let directory := Directory.ofList handlers
  have kept : directory.handlers = handlers.toArray := Directory.handlers_ofList distinct
  have callable : directory.Callable := Directory.callable_of_few (by simpa [kept] using few)
  have tabled : trie.Tabled (Trie.accepted names) := Trie.tabled_insertEach names
  have located : ∀ name ∈ trie.branches.names, (directory.located? name).isSome := by
    intro name member
    refine (Directory.coherent_ofList handlers).exists_entry ?_
    rw [kept]
    exact known name member
  obtain ⟨emission, emitted⟩ := Emission.exists_ofTrie located
  obtain ⟨starts, epilogue⟩ := Emission.landings_of_ofTrie emitted
  have lodged := tabled.represents.lodged
  have begins : trie.branches.Begins directory
      (trie.branches.startOf directory prologue.length) prologue.length :=
    Forest.begins_startOf (List.nodup_cons.1 lodged.distinct).2
  refine ⟨emission, _, _, emitted, Emission.mem_placeholders_iff emitted, ?_, ?_,
    starts.trans begins.map_ids.symm, ?_, Emission.resolve_of_ofTrie emitted, ?_, ?_, ?_, ?_, ?_⟩
  · intro position instr present branch
    exact Emission.waits_of_ofTrie emitted instr
      (Array.mem_toList_iff.2 (Array.mem_of_getElem? present)) branch
  · intro position number known
    have below := Forest.lt_of_mem_waits ((Emission.placeholders_of_ofTrie emitted).1 known)
    rwa [← Array.length_toList, starts, List.length_map, Forest.length_starts, ← Nat.zero_add
      trie.branches.size]
  · intro number id node member found
    rw [← Nat.zero_add number]
    exact lodged.numbered tabled.linked tabled.represents.sized begins located
      (fun entry member => (Emission.placeholders_of_ofTrie emitted).2 member) member found
  · rw [firstChild?, lodged.childrenOf_eq, List.map_nil, List.nil_append, begins.landingOf_eq]
    rw [epilogue]
    cases trie.branches with
    | nil => rfl
    | cons => rfl
  · intro id node found inside
    have member : id ∈ trie.branches.ids := tabled.represents.mem_ids_iff.2
      ⟨Nat.pos_of_ne_zero inside, (Array.getElem?_eq_some_iff.1 found).1⟩
    rw [epilogue]
    exact lodged.placed tabled.linked tabled.named (Forest.contains_code directory trie.branches)
      begins located member found
  · intro position instr present branch
    obtain ⟨target, rfl⟩ := Forest.branchTo_of_branchNe present branch
    exact ⟨target, rfl, (Forest.goesOn_of_branchTo callable present).forward⟩
  · rw [epilogue]
    exact Forest.contains_epilogue directory trie.branches
  · rw [epilogue]
    exact Forest.size_program directory trie.branches

private def toggles : List Handler :=
  [⟨"on", [], fun _ => none⟩, ⟨"off", [], fun _ => none⟩, ⟨"once", [.long], fun args => args[0]?⟩]

/-- The names come in another order than the handlers. The second "once" and the empty name are
refused. -/
theorem control_flow_toggles :
    ∃ directory emission program start, Directory.ofDistinct toggles = .ok directory ∧
      let trie := (Trie.empty.insertEach ["once", "on", "once", "", "off"]).1
      Emission.ofTrie directory trie = .ok emission ∧
        emission.code.resolve emission.landings emission.placeholders =
          (program, .ok emission.placeholders.size) ∧
        (∀ id node, trie.nodes[id]? = some node → id ≠ 0 →
          Placed directory trie.nodes program start emission.landings.epilogue id node) := by
  have accepted : Directory.ofDistinct toggles = .ok (.ofList toggles) :=
    Directory.ofDistinct_of_nodup (by decide) (by decide)
  have known : ∀ name ∈ (Trie.empty.insertEach ["once", "on", "once", "", "off"]).1.names,
      name ∈ toggles.map Handler.name := by decide
  obtain ⟨emission, program, start, emitted, -, -, -, -, -, resolved, -, placed, -⟩ :=
    control_flow accepted known
  exact ⟨_, emission, program, start, accepted, emitted, resolved, placed⟩

end TrieDispatch
