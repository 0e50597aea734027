import TrieDispatch.Proofs.Program.Emitting
import TrieDispatch.Proofs.Program.Resolving
import TrieDispatch.Proofs.Trie.Sizes

/-! # Where branches may land -/

namespace TrieDispatch

open Program

namespace Forest

/-- Every node with its first instruction, in preorder, for code that starts at `start`. -/
def starts (directory : Directory) : Forest → (start : Nat) → List (Nat × Nat)
  | nil, _ => []
  | cons _ id name children siblings, start =>
    (id, start) :: (children.starts directory (start + 9 + nameSize directory name) ++
      siblings.starts directory
        (start + 9 + nameSize directory name + children.codeSize directory))

def landing (forest : Forest) (number : Nat) : Landing :=
  if forest.isNil then .epilogue else .subtree number

/-- The branch of a node that may end a name, when the first child is numbered `number`. -/
def nameWaits (directory : Directory) (children : Forest) (name : Option String)
    (start number : Nat) : List (Nat × Landing) :=
  match name.bind directory.located? with
  | none => []
  | some _ => [(start + 2, children.landing number)]

/-- Every branch with where it must land, for code that starts at `start` and nodes numbered upwards
from `number`. The next sibling has its number after the whole subtree. -/
def waits (directory : Directory) : Forest → (start number : Nat) → List (Nat × Landing)
  | nil, _, _ => []
  | cons _ _ name children siblings, start, number =>
    (start + 4, siblings.landing (number + (1 + children.size))) ::
      (nameWaits directory children name (start + 9) (number + 1) ++
      (children.waits directory (start + 9 + nameSize directory name) (number + 1) ++
      siblings.waits directory
        (start + 9 + nameSize directory name + children.codeSize directory)
        (number + (1 + children.size))))

variable {directory : Directory} {forest children : Forest} {name : Option String}
  {start number position : Nat} {landing : Landing}

theorem map_fst_starts (forest : Forest) (start : Nat) :
    (forest.starts directory start).map Prod.fst = forest.ids := by
  induction forest generalizing start with
  | nil => rfl
  | cons label id name children siblings below beside =>
    rw [starts, ids, List.map_cons, List.map_append, below, beside]

theorem length_starts (forest : Forest) (start : Nat) :
    (forest.starts directory start).length = forest.size := by
  rw [← length_ids, ← map_fst_starts forest start, List.length_map]

theorem mem_nameWaits (h : (position, landing) ∈ nameWaits directory children name start number) :
    position = start + 2 ∧ landing = children.landing number := by
  rw [nameWaits] at h
  split at h
  · cases h
  · exact Prod.mk.inj (List.mem_singleton.1 h)

theorem le_of_mem_waits (h : (position, landing) ∈ forest.waits directory start number) :
    start ≤ position := by
  induction forest generalizing start number with
  | nil => cases h
  | cons label id name children siblings below beside =>
    rw [waits, List.mem_cons, List.mem_append, List.mem_append] at h
    rcases h with same | member | member | member
    · rw [(Prod.mk.inj same).1]
      exact Nat.le_add_right _ _
    · have := (mem_nameWaits member).1
      omega
    · have := below member
      omega
    · have := beside member
      omega

theorem lt_of_landing_eq {number' : Nat} (h : forest.landing number = .subtree number') :
    number' < number + forest.size := by
  cases forest with
  | nil => cases h
  | cons =>
    cases h
    rw [size]
    omega

theorem lt_of_mem_waits {number' : Nat}
    (h : (position, .subtree number') ∈ forest.waits directory start number) :
    number' < number + forest.size := by
  induction forest generalizing start number with
  | nil => cases h
  | cons label id name children siblings below beside =>
    rw [waits, List.mem_cons, List.mem_append, List.mem_append] at h
    rw [size]
    rcases h with same | member | member | member
    · have := lt_of_landing_eq (Prod.mk.inj same).2.symm
      omega
    · have := lt_of_landing_eq (mem_nameWaits member).2.symm
      omega
    · have := below member
      omega
    · have := beside member
      omega

theorem op_of_target {target : Nat} {instr : Instr}
    (present : (forest.program directory)[position]? = some instr)
    (goes : instr.operand = .target target) : instr.op = .branchNe := by
  cases assembled_of_getElem? present with
  | branchTo => rfl
  | _ => cases goes

end Forest

def Instr.Waits (instr : Instr) : Prop := instr.op = .branchNe → instr.operand = .pending

namespace Draft

variable {directory : Directory} {draft next final : Draft} {children forest : Forest}
  {name : Option String}

def Waiting (draft : Draft) : Prop := ∀ instr ∈ draft.code.toList, instr.Waits

theorem Waiting.append (h : draft.Waiting) {block : List Instr}
    (waits : ∀ instr ∈ block, instr.Waits) : (draft.append block).Waiting := by
  rw [Waiting, toList_append]
  exact List.forall_mem_append.2 ⟨h, waits⟩

theorem placeholders_place {position other : Nat} {landing landing' : Landing}
    (free : draft.placeholders[position]? = none) :
    (draft.place position landing).placeholders[other]? = some landing' ↔
      draft.placeholders[other]? = some landing' ∨ (other, landing') = (position, landing) := by
  simp only [Draft.place, Std.TreeMap.getElem?_insert, Nat.compare_eq_eq, Prod.mk.injEq]
  by_cases same : position = other
  · subst same
    simp [free, eq_comm]
  · simp [same, Ne.symm same]

theorem entry_of_emitName {name : String}
    (h : emitEnd directory children (some name) draft = .ok next) :
    ∃ entry, directory.located? name = some entry ∧
      next = (draft.append (compareLength ++ callHandler entry.2 entry.1 ++ answer true)).place
        (draft.code.size + 2)
        (if children.isNil then .epilogue else .subtree draft.starts.size) := by
  change emitName directory children name draft = .ok next at h
  cases known : directory.located? name with
  | none =>
    rw [emitName_of_unknown known] at h
    cases h
  | some entry =>
    rw [emitName_of_entry known] at h
    exact ⟨entry, rfl, (Except.ok.inj h).symm⟩

theorem waits_compareLabel (label : Char) : ∀ instr ∈ compareLabel label ++ advance,
    instr.Waits := by
  simp [compareLabel, advance, Instr.Waits, Instr.plain]

theorem waits_callHandler (handler : Handler) (position : Nat) :
    ∀ instr ∈ compareLength ++ callHandler handler position ++ answer true, instr.Waits := by
  simp only [callHandler_eq, List.forall_mem_append]
  refine ⟨⟨by simp [compareLength, Instr.Waits], fun instr member branch => ?_,
    by simp [Instr.Waits, Instr.plain]⟩, by simp [answer, Instr.Waits, Instr.plain]⟩
  have known := op_of_mem_loadArguments member
  simp [branch] at known

section

variable (h : emitEnd directory children name draft = .ok next)

include h

theorem size_emitEnd : next.starts = draft.starts ∧
    next.code.size = draft.code.size + Forest.nameSize directory name := by
  cases name with
  | none =>
    obtain rfl := Except.ok.inj h
    exact ⟨rfl, rfl⟩
  | some name =>
    obtain ⟨⟨position, handler⟩, known, rfl⟩ := entry_of_emitName h
    rw [Forest.nameSize, Option.bind_some, known]
    refine ⟨rfl, ?_⟩
    show (draft.append _).code.size = _
    rw [size_append, List.length_append, List.length_append, Forest.length_callHandler]
    simp only [compareLength, answer, List.length_cons, List.length_nil]
    omega

theorem Waiting.emitEnd (waiting : draft.Waiting) : next.Waiting := by
  cases name with
  | none =>
    obtain rfl := Except.ok.inj h
    exact waiting
  | some name =>
    obtain ⟨⟨position, handler⟩, -, rfl⟩ := entry_of_emitName h
    exact waiting.append (waits_callHandler handler position)

theorem placeholders_emitEnd (bounded : draft.Bounded) {position : Nat} {landing : Landing} :
    next.placeholders[position]? = some landing ↔
      draft.placeholders[position]? = some landing ∨ (position, landing) ∈
        Forest.nameWaits directory children name draft.code.size draft.starts.size := by
  cases name with
  | none =>
    obtain rfl := Except.ok.inj h
    simp only [Forest.nameWaits, Option.bind_none, List.not_mem_nil, or_false]
  | some name =>
    obtain ⟨entry, known, rfl⟩ := entry_of_emitName h
    have free := bounded.free_of_le (Nat.le_add_right draft.code.size 2)
    rw [← placeholders_append] at free
    rw [placeholders_place free, placeholders_append, Forest.nameWaits, Option.bind_some, known,
      List.mem_singleton]
    rfl

end

theorem size_named {label : Char} (h : emitEnd directory children name
      (draft.beginNode.append (compareLabel label ++ advance)) = .ok next) :
    next.starts = draft.starts.push draft.code.size ∧
      next.code.size = draft.code.size + 9 + Forest.nameSize directory name := by
  obtain ⟨starts, size⟩ := size_emitEnd h
  rw [size_append] at size
  exact ⟨starts, size⟩

/-- A forest adds the starts of its nodes, and as much code as its parts have. -/
theorem starts_emitForest (h : emitForest directory forest draft = .ok final) :
    final.starts.toList = draft.starts.toList ++
        (forest.starts directory draft.code.size).map Prod.snd ∧
      final.code.size = draft.code.size + forest.codeSize directory := by
  induction forest generalizing draft final with
  | nil =>
    obtain rfl := Except.ok.inj h
    exact ⟨(List.append_nil _).symm, rfl⟩
  | cons label id name children siblings inChildren inSiblings =>
    rw [emitForest_cons] at h
    obtain ⟨named, nameDone, h⟩ := bind_eq_ok_iff.1 h
    obtain ⟨lower, lowerDone, h⟩ := bind_eq_ok_iff.1 h
    obtain ⟨namedStarts, namedSize⟩ := size_named nameDone
    obtain ⟨lowerStarts, lowerSize⟩ := inChildren lowerDone
    have rest := inSiblings h
    obtain ⟨restStarts, restSize⟩ : final.starts.toList = lower.starts.toList ++
        (siblings.starts directory lower.code.size).map Prod.snd ∧
      final.code.size = lower.code.size + siblings.codeSize directory := rest
    rw [namedSize] at lowerStarts lowerSize
    rw [lowerSize] at restStarts restSize
    constructor
    · rw [restStarts, lowerStarts, namedStarts, Array.toList_push, Forest.starts, List.map_cons,
        List.map_append]
      simp only [List.append_assoc, List.cons_append, List.nil_append]
    · rw [restSize, Forest.codeSize]
      omega

theorem size_starts_emitForest (h : emitForest directory forest draft = .ok final) :
    final.starts.size = draft.starts.size + forest.size := by
  have length := congrArg List.length (starts_emitForest h).1
  rwa [List.length_append, List.length_map, Forest.length_starts, Array.length_toList,
    Array.length_toList] at length

theorem size_starts_below {label : Char} {named lower : Draft}
    (nameDone : emitEnd directory children name
      (draft.beginNode.append (compareLabel label ++ advance)) = .ok named)
    (lowerDone : emitForest directory children named = .ok lower) :
    lower.starts.size = draft.starts.size + (1 + children.size) := by
  rw [size_starts_emitForest lowerDone, (size_named nameDone).1, Array.size_push, Nat.add_assoc]

/-- The next sibling is numbered after the subtree of the node. -/
theorem emitForest_cons_number (label : Char) (id : Nat) (name : Option String)
    (children siblings : Forest) (draft : Draft) :
    emitForest directory (.cons label id name children siblings) draft =
      (emitEnd directory children name
        (draft.beginNode.append (compareLabel label ++ advance)) >>= fun named =>
      emitForest directory children named >>= fun lower =>
      emitForest directory siblings (lower.place (draft.code.size + 4)
        (siblings.landing (draft.starts.size + (1 + children.size))))) := by
  rw [emitForest_cons]
  cases nameDone : emitEnd directory children name
      (draft.beginNode.append (compareLabel label ++ advance)) with
  | error error => rfl
  | ok named =>
    change emitForest directory children named >>= _ = emitForest directory children named >>= _
    cases lowerDone : emitForest directory children named with
    | error error => rfl
    | ok lower =>
      rw [← size_starts_below nameDone lowerDone]
      rfl

/-- Emits a forest with the numbers of the nodes known beforehand: the next sibling of a node has
the number of the node and, added to it, the size of its subtree. -/
def emitNumbered (directory : Directory) (sizes : Array Nat) :
    Forest → Draft → Except CompileError Draft
  | .nil, draft => .ok draft
  | .cons label id name children siblings, draft => do
    let mismatch := siblings.landing (draft.starts.size + sizes[id]?.getD 0)
    let named ← emitEnd directory children name
      (draft.beginNode.append (compareLabel label ++ advance))
    let lower ← emitNumbered directory sizes children named
    emitNumbered directory sizes siblings (lower.place (draft.code.size + 4) mismatch)

theorem emitForest_eq_emitNumbered {sizes : Array Nat} (sized : forest.Sized sizes)
    (draft : Draft) :
    emitForest directory forest draft = emitNumbered directory sizes forest draft := by
  induction forest generalizing draft with
  | nil => rfl
  | cons label id name children siblings below beside =>
    obtain ⟨own, lower, rest⟩ := Forest.sized_cons_iff.1 sized
    rw [emitForest_cons_number, emitNumbered, own, Option.getD_some]
    simp only [below lower, beside rest]

theorem Waiting.emitForest (h : emitForest directory forest draft = .ok final)
    (waiting : draft.Waiting) : final.Waiting := by
  induction forest generalizing draft final with
  | nil =>
    obtain rfl := Except.ok.inj h
    exact waiting
  | cons label id name children siblings inChildren inSiblings =>
    rw [emitForest_cons] at h
    obtain ⟨named, nameDone, h⟩ := bind_eq_ok_iff.1 h
    obtain ⟨lower, lowerDone, h⟩ := bind_eq_ok_iff.1 h
    have begun : draft.beginNode.Waiting := waiting
    have named := (begun.append (waits_compareLabel label)).emitEnd nameDone
    have lower : lower.Waiting := inChildren lowerDone named
    exact inSiblings h lower

theorem placeholders_emitForest (h : emitForest directory forest draft = .ok final)
    (bounded : draft.Bounded) {position : Nat} {landing : Landing} :
    final.placeholders[position]? = some landing ↔ draft.placeholders[position]? = some landing ∨
      (position, landing) ∈ forest.waits directory draft.code.size draft.starts.size := by
  induction forest generalizing draft final position landing with
  | nil =>
    obtain rfl := Except.ok.inj h
    simp only [Forest.waits, List.not_mem_nil, or_false]
  | cons label id name children siblings inChildren inSiblings =>
    rw [emitForest_cons_number] at h
    obtain ⟨named, nameDone, h⟩ := bind_eq_ok_iff.1 h
    obtain ⟨lower, lowerDone, h⟩ := bind_eq_ok_iff.1 h
    have begun : draft.beginNode.Bounded := bounded
    have compared := begun.append (compareLabel label ++ advance)
    obtain ⟨-, namedBounded, -⟩ := emitEnd_adds nameDone compared
    have lowerBounded := (emits_of_emitForest lowerDone namedBounded).bounded
    obtain ⟨namedStarts, namedSize⟩ := size_named nameDone
    have number := size_starts_below nameDone lowerDone
    have lowerSize := (starts_emitForest lowerDone).2
    have inLower (position : Nat) (landing : Landing) :
        lower.placeholders[position]? = some landing ↔
          (draft.placeholders[position]? = some landing ∨ (position, landing) ∈ Forest.nameWaits
            directory children name (draft.code.size + 9) (draft.starts.size + 1)) ∨
          (position, landing) ∈ children.waits directory
            (draft.code.size + 9 + Forest.nameSize directory name) (draft.starts.size + 1) := by
      rw [inChildren lowerDone namedBounded, placeholders_emitEnd nameDone compared, size_append,
        namedStarts, namedSize, Array.size_push]
      have starts : (draft.beginNode.append (compareLabel label ++ advance)).starts.size =
          draft.starts.size + 1 := Array.size_push _
      rw [starts]
      rfl
    -- The placeholder for the next sibling comes last, at a branch that has none yet.
    have free : lower.placeholders[draft.code.size + 4]? = none := by
      by_contra known
      obtain ⟨landing, known⟩ := Option.ne_none_iff_exists'.1 known
      rcases (inLower _ landing).1 known with (old | own) | below
      · have := bounded _ _ old
        omega
      · have := (Forest.mem_nameWaits own).1
        omega
      · have := Forest.le_of_mem_waits below
        omega
    have inside : draft.code.size + 4 < lower.code.size := by omega
    have rest : final.placeholders[position]? = some landing ↔ _ ∨
        (position, landing) ∈ siblings.waits directory lower.code.size lower.starts.size :=
      inSiblings h (lowerBounded.place inside _)
    rw [rest, placeholders_place free, inLower, number, lowerSize, namedSize, Forest.waits,
      List.mem_cons, List.mem_append, List.mem_append]
    simp only [or_assoc, or_left_comm (b := (position, landing) = _)]

end Draft

namespace Emission

/-- The table of sizes tells the numbers that an emission gives to the siblings. -/
theorem ofTrie_eq_emitNumbered {nodes : Array Trie.Node} {trie : Trie}
    (h : Trie.Represents nodes trie) (directory : Directory) :
    ofTrie directory trie = do
      let draft ← Draft.emitNumbered directory trie.subtreeSizes trie.branches Draft.start
      return {
        code := draft.code.appendList (answer false)
        landings := ⟨draft.starts, draft.code.size⟩
        placeholders := draft.placeholders } := by
  rw [ofTrie, Draft.emitForest_eq_emitNumbered h.sized]

variable {directory : Directory} {trie : Trie} {emission : Emission}
  (emitted : ofTrie directory trie = .ok emission)

include emitted

theorem landings_of_ofTrie : emission.landings.starts.toList =
      (trie.branches.starts directory prologue.length).map Prod.snd ∧
    emission.landings.epilogue = trie.branches.codeEnd directory := by
  obtain ⟨draft, done, same⟩ := bind_eq_ok_iff.1 emitted
  obtain rfl := Except.ok.inj same
  exact Draft.starts_emitForest done

theorem waits_of_ofTrie : ∀ instr ∈ emission.code.toList, instr.Waits := by
  obtain ⟨draft, done, same⟩ := bind_eq_ok_iff.1 emitted
  obtain rfl := Except.ok.inj same
  have start : Draft.start.Waiting := by
    simp [Draft.Waiting, Draft.start, prologue, Instr.Waits, Instr.plain]
  exact (start.emitForest done).append
    (show ∀ instr ∈ answer false, instr.Waits by simp [answer, Instr.Waits, Instr.plain])

theorem placeholders_of_ofTrie {position : Nat} {landing : Landing} :
    emission.placeholders[position]? = some landing ↔
      (position, landing) ∈ trie.branches.waits directory prologue.length 0 := by
  obtain ⟨draft, done, same⟩ := bind_eq_ok_iff.1 emitted
  obtain rfl := Except.ok.inj same
  have placed : draft.placeholders[position]? = some landing ↔ _ :=
    Draft.placeholders_emitForest done Draft.bounded_start
  rwa [Draft.placeholders_start, or_iff_right (Option.some_ne_none landing).symm] at placed

theorem mem_placeholders_iff (position : Nat) : position ∈ emission.placeholders ↔
    ∃ instr, emission.code[position]? = some instr ∧ instr.op = .branchNe := by
  obtain ⟨inside, bound⟩ := bound_of_ofTrie emitted
  have same := bound position
  rw [Std.TreeMap.mem_iff_isSome_getElem?]
  constructor
  · intro placed
    obtain ⟨landing, known⟩ := Option.isSome_iff_exists.1 placed
    obtain ⟨instr, present⟩ : ∃ instr, emission.code[position]? = some instr :=
      ⟨_, Array.getElem?_eq_getElem (inside known)⟩
    rw [present, known] at same
    have branch : Instr.op ⟨instr.op, .target (emission.landings.position landing)⟩ = .branchNe :=
      Forest.op_of_target same rfl
    exact ⟨instr, present, branch⟩
  · rintro ⟨instr, present, branch⟩
    by_contra free
    rw [present, Option.not_isSome_iff_eq_none.1 free] at same
    obtain ⟨target, rfl⟩ := Forest.branchTo_of_branchNe same branch
    have waits := waits_of_ofTrie emitted _ (Array.mem_toList_iff.2
      (Array.mem_of_getElem? present)) branch
    cases waits

end Emission

end TrieDispatch
