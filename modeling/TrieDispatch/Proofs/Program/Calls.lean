import Mathlib.Algebra.GroupWithZero.Nat
import TrieDispatch.Proofs.Program.Landings

/-! # Calls in emitted code -/

namespace TrieDispatch

open Program

/-- The instruction before it is bound: a branch does not know its target. -/
def Instr.unbound (instr : Instr) : Instr :=
  if instr.op = .branchNe then ⟨.branchNe, .pending⟩ else instr

@[simp]
theorem Instr.op_unbound (instr : Instr) : instr.unbound.op = instr.op := by
  rw [unbound]
  split
  next branch => exact branch.symm
  next => rfl

def Instr.call (entry : Nat × Handler) : Instr := ⟨.callHandler, .handler entry.1.toUInt16⟩

theorem Program.Contains.map {program : Program} {start : Nat} {block : List Instr}
    (h : program.Contains start block) (change : Instr → Instr) :
    Contains (program.map change) start (block.map change) := by
  obtain ⟨before, after, split, length⟩ := h
  refine ⟨before.map change, after.map change, ?_, by rw [List.length_map, length]⟩
  rw [Array.toList_map, split, List.map_append, List.map_append]

theorem map_unbound_loadArguments (handler : Handler) :
    (loadArguments handler).map Instr.unbound = loadArguments handler := by
  refine (List.map_congr_left fun instr member => if_neg ?_).trans (List.map_id _)
  intro branch
  have known := op_of_mem_loadArguments member
  simp [branch] at known

namespace Forest

variable {directory : Directory} {epilogue start number : Nat} {children : Forest}
  {name : Option String}

/-- The handlers that the names are for, in preorder and with their positions. -/
def entries (directory : Directory) (forest : Forest) : List (Nat × Handler) :=
  forest.names.filterMap directory.located?

theorem entries_cons (label : Char) (id : Nat) (name : Option String)
    (children siblings : Forest) : entries directory (cons label id name children siblings) =
      (name.bind directory.located?).toList ++
        (children.entries directory ++ siblings.entries directory) := by
  rw [entries, names, List.filterMap_append, List.filterMap_append]
  congr 1
  cases name with
  | none => rfl
  | some name =>
    rw [Option.toList_some, List.filterMap_cons, Option.bind_some]
    cases directory.located? name <;> rfl

theorem nameSize_eq (directory : Directory) (name : Option String) :
    nameSize directory name =
      ((name.bind directory.located?).toList.map fun entry => 7 + 4 * entry.2.arity).sum := by
  rw [nameSize]
  cases name.bind directory.located? <;> rfl

/-- Nine instructions for each node, and seven for each name with four for each parameter. -/
theorem codeSize_eq (directory : Directory) (forest : Forest) : forest.codeSize directory =
    9 * forest.size + ((forest.entries directory).map fun entry => 7 + 4 * entry.2.arity).sum := by
  induction forest with
  | nil => rfl
  | cons label id name children siblings below beside =>
    rw [codeSize, below, beside, nameSize_eq, entries_cons, size]
    simp only [List.map_append, List.sum_append]
    omega

/-! ## Calls -/

theorem filter_nameCode (children : Forest) (name : Option String) (start : Nat) :
    (nameCode directory epilogue children name start).filter
      (fun instr => instr.op = .callHandler) =
        (name.bind directory.located?).toList.map Instr.call := by
  cases known : name.bind directory.located? with
  | none =>
    rw [nameCode_of_none _ _ known]
    rfl
  | some entry =>
    obtain ⟨position, handler⟩ := entry
    have loads : (loadArguments handler).filter (fun instr => instr.op = .callHandler) = [] := by
      refine List.filter_eq_nil_iff.2 fun instr member call => ?_
      have known := op_of_mem_loadArguments member
      simp [of_decide_eq_true call] at known
    rw [nameCode_of_entry _ _ known, callHandler_eq, List.filter_append, List.filter_append,
      List.filter_append, loads]
    rfl

theorem filter_code (forest : Forest) (start : Nat) :
    (forest.code directory epilogue start).filter (fun instr => instr.op = .callHandler) =
      (forest.entries directory).map Instr.call := by
  induction forest generalizing start with
  | nil => rfl
  | cons label id name children siblings below beside =>
    rw [code_cons, entries_cons]
    simp only [List.filter_append, List.map_append, filter_nameCode, below, beside]
    rfl

theorem filter_program (directory : Directory) (forest : Forest) :
    (forest.program directory).toList.filter (fun instr => instr.op = .callHandler) =
      (forest.entries directory).map Instr.call := by
  rw [program, List.filter_append, List.filter_append, filter_code]
  exact List.append_nil _

/-- A call with the loads before it, which follow a branch. -/
def Called (program : Program) (entry : Nat × Handler) : Prop :=
  ∃ start target, program.Contains start
    (.branchTo target :: (loadArguments entry.2 ++ [Instr.call entry]))

theorem called_of_nameCode {program : Program} {entry : Nat × Handler}
    (known : name.bind directory.located? = some entry)
    (contains : program.Contains start (nameCode directory epilogue children name start)) :
    Called program entry := by
  obtain ⟨position, handler⟩ := entry
  rw [nameCode_of_entry _ _ known, callHandler_eq] at contains
  -- The comparison before the branch and all that follows the call are left out.
  have block : program.Contains start ([⟨.loadLocal, .slot matchedSlot⟩,
      ⟨.loadLocal, .slot lengthSlot⟩] ++ ((.branchTo (if children.isNil then epilogue
        else start + (7 + 4 * handler.arity)) :: (loadArguments handler ++
          [Instr.call (position, handler)])) ++ (.plain .storeOut :: answer true))) := by
    simpa [compareLength, Instr.call] using contains
  exact ⟨_, _, block.right.left⟩

theorem called_of_contains {program : Program} (forest : Forest)
    (contains : program.Contains start (forest.code directory epilogue start)) :
    ∀ entry ∈ forest.entries directory, Called program entry := by
  induction forest generalizing start with
  | nil => exact fun _ => nofun
  | cons label id name children siblings below beside =>
    have places := places_of_contains contains
    rw [entries_cons, List.forall_mem_append, List.forall_mem_append]
    refine ⟨fun entry member => ?_, below places.below, beside places.beside⟩
    exact called_of_nameCode (Option.mem_toList.1 member) places.named

/-! ## Starts and placeholders -/

theorem mem_starts {node : Nat × Nat} {forest : Forest}
    (member : node ∈ forest.starts directory start) :
    start ≤ node.2 ∧ node.2 < start + forest.codeSize directory := by
  induction forest generalizing start with
  | nil => cases member
  | cons label id name children siblings below beside =>
    rw [starts, List.mem_cons, List.mem_append] at member
    rw [codeSize]
    rcases member with rfl | member | member
    · exact ⟨Nat.le_refl _, by dsimp only; omega⟩
    · have := below member
      omega
    · have := beside member
      omega

theorem pairwise_starts (forest : Forest) (start : Nat) :
    (forest.starts directory start).Pairwise fun node other => node.2 < other.2 := by
  induction forest generalizing start with
  | nil => exact .nil
  | cons label id name children siblings below beside =>
    rw [starts, List.pairwise_cons, List.forall_mem_append, List.pairwise_append]
    refine ⟨⟨fun node member => ?_, fun node member => ?_⟩, below _, beside _,
      fun node member other member' => ?_⟩
    · have := mem_starts member
      dsimp only
      omega
    · have := mem_starts member
      dsimp only
      omega
    · have := mem_starts member
      have := mem_starts member'
      omega

theorem lt_of_mem_nameWaits {wait : Nat × Landing}
    (member : wait ∈ nameWaits directory children name start number) :
    wait.1 < start + nameSize directory name := by
  have position := (mem_nameWaits member).1
  rw [nameWaits] at member
  rw [nameSize, position]
  split at member
  next => cases member
  next entry known =>
    rw [known]
    dsimp only
    omega

theorem fst_lt_of_mem_waits {wait : Nat × Landing} {forest : Forest}
    (member : wait ∈ forest.waits directory start number) :
    wait.1 < start + forest.codeSize directory := by
  induction forest generalizing start number with
  | nil => cases member
  | cons label id name children siblings below beside =>
    rw [waits, List.mem_cons, List.mem_append, List.mem_append] at member
    rw [codeSize]
    rcases member with rfl | member | member | member
    · dsimp only
      omega
    · have := lt_of_mem_nameWaits member
      omega
    · have := below member
      omega
    · have := beside member
      omega

theorem pairwise_waits (forest : Forest) (start number : Nat) :
    (forest.waits directory start number).Pairwise fun wait other => wait.1 < other.1 := by
  induction forest generalizing start number with
  | nil => exact .nil
  | cons label id name children siblings below beside =>
    have single : (nameWaits directory children name (start + 9) (number + 1)).Pairwise
        fun wait other => wait.1 < other.1 := by
      rw [nameWaits]
      split
      next => exact .nil
      next => exact List.pairwise_singleton _ _
    rw [waits, List.pairwise_cons, List.pairwise_append, List.pairwise_append]
    simp only [List.forall_mem_append]
    refine ⟨⟨fun wait member => ?_, fun wait member => ?_, fun wait member => ?_⟩, single,
      ⟨below _ _, beside _ _, fun wait member other member' => ?_⟩,
      fun wait member => ⟨fun other member' => ?_, fun other member' => ?_⟩⟩
    · have := (mem_nameWaits member).1
      omega
    · have := le_of_mem_waits member
      omega
    · have := le_of_mem_waits member
      omega
    · have := fst_lt_of_mem_waits member
      have := le_of_mem_waits member'
      omega
    · have := lt_of_mem_nameWaits member
      have := le_of_mem_waits member'
      omega
    · have := lt_of_mem_nameWaits member
      have := le_of_mem_waits member'
      omega

theorem length_waits (forest : Forest) (start number : Nat) :
    (forest.waits directory start number).length =
      forest.size + (forest.entries directory).length := by
  induction forest generalizing start number with
  | nil => rfl
  | cons label id name children siblings below beside =>
    have single : (nameWaits directory children name (start + 9) (number + 1)).length =
        (name.bind directory.located?).toList.length := by
      rw [nameWaits]
      cases name.bind directory.located? <;> rfl
    rw [waits, entries_cons, size]
    simp only [List.length_cons, List.length_append, below, beside, single]
    omega

end Forest

namespace Emission

variable {directory : Directory} {trie : Trie} {emission : Emission}
  (emitted : ofTrie directory trie = .ok emission)

include emitted

/-- Emitted code is the assembled program before its branches are bound. -/
theorem code_of_ofTrie :
    emission.code = (trie.branches.program directory).map Instr.unbound := by
  obtain ⟨-, bound⟩ := bound_of_ofTrie emitted
  refine Array.ext_getElem? fun position => ?_
  rw [Array.getElem?_map, bound]
  cases present : emission.code[position]? with
  | none => rfl
  | some instr =>
    rw [Option.map_some, Option.map_some]
    congr 1
    by_cases branch : instr.op = .branchNe
    · have waits := waits_of_ofTrie emitted instr
        (Array.mem_toList_iff.2 (Array.mem_of_getElem? present)) branch
      have stays : (emission.landings.bind emission.placeholders[position]? instr).op =
          .branchNe := by
        rw [← branch]
        cases emission.placeholders[position]? <;> rfl
      rw [Instr.unbound, if_pos stays, ← branch, ← waits]
    · have free : emission.placeholders[position]? = none := by
        by_contra known
        have placed := Std.TreeMap.mem_iff_isSome_getElem?.2 (Option.isSome_iff_ne_none.2 known)
        obtain ⟨other, present', branch'⟩ := (mem_placeholders_iff emitted position).1 placed
        obtain rfl := Option.some.inj (present.symm.trans present')
        exact branch branch'
      rw [free]
      exact (if_neg branch).symm

theorem size_code_of_ofTrie : emission.code.size = 8 + 9 * trie.branches.size +
    ((trie.branches.entries directory).map fun entry => 7 + 4 * entry.2.arity).sum := by
  rw [code_of_ofTrie emitted, Array.size_map, Forest.size_program, Forest.codeEnd,
    Forest.codeSize_eq, show prologue.length = 6 from rfl]
  omega

theorem size_starts_of_ofTrie : emission.landings.starts.size = trie.branches.size := by
  rw [← Array.length_toList, (landings_of_ofTrie emitted).1, List.length_map,
    Forest.length_starts]

theorem pairwise_starts_of_ofTrie : emission.landings.starts.toList.Pairwise (· < ·) := by
  rw [(landings_of_ofTrie emitted).1, List.pairwise_map]
  exact Forest.pairwise_starts trie.branches prologue.length

theorem size_placeholders_of_ofTrie : emission.placeholders.size =
    trie.branches.size + (trie.branches.entries directory).length := by
  have distinct {entries : List (Nat × Landing)}
      (ascending : entries.Pairwise fun entry other => entry.1 < other.1) : entries.Nodup :=
    ascending.imp fun less same => Nat.ne_of_lt less (congrArg Prod.fst same)
  have same : emission.placeholders.toList.Perm
      (trie.branches.waits directory prologue.length 0) :=
    (List.perm_ext_iff_of_nodup (distinct (pairwise_toList emission.placeholders))
      (distinct (Forest.pairwise_waits trie.branches prologue.length 0))).2 fun _ =>
        Std.TreeMap.mem_toList_iff_getElem?_eq_some.trans (placeholders_of_ofTrie emitted)
  rw [← Std.TreeMap.length_toList, same.length_eq, Forest.length_waits]

theorem calls_of_ofTrie : emission.code.toList.filter (fun instr => instr.op = .callHandler) =
    (trie.branches.entries directory).map Instr.call := by
  rw [code_of_ofTrie emitted, Array.toList_map, List.filter_map]
  simp only [Function.comp_def, Instr.op_unbound, Forest.filter_program, List.map_map]
  rfl

theorem contains_of_ofTrie : ∀ entry ∈ trie.branches.entries directory, ∃ start,
    emission.code.Contains start
      (⟨.branchNe, .pending⟩ :: (loadArguments entry.2 ++ [Instr.call entry])) := by
  intro entry member
  obtain ⟨start, target, contains⟩ := Forest.called_of_contains trie.branches
    (Forest.contains_code directory trie.branches) entry member
  have unbound := contains.map Instr.unbound
  rw [← code_of_ofTrie emitted, List.map_cons, List.map_append, map_unbound_loadArguments]
    at unbound
  exact ⟨start, unbound⟩

end Emission

end TrieDispatch
