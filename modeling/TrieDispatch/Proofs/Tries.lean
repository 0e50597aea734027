import TrieDispatch.Proofs.Checked
import TrieDispatch.Trie

/-! # What a trie holds -/

namespace TrieDispatch

namespace Forest

variable {forest grown : Forest} {name : String} {next node : Nat} {label : Char}
  {rest query : List Char}

def nameAt (forest : Forest) : List Char → Option String
  | [] => none
  | label :: rest => (forest.find? label rest).bind (·.2)

@[simp]
theorem nameAt_empty (forest : Forest) : forest.nameAt [] = none := rfl

@[simp]
theorem nameAt_nil (query : List Char) : nil.nameAt query = none := by
  cases query <;> rfl

theorem nameAt_cons (c : Char) (id : Nat) (stored : Option String) (children siblings : Forest)
    (label : Char) (rest : List Char) :
    (cons c id stored children siblings).nameAt (label :: rest) =
      if c = label then (if rest = [] then stored else children.nameAt rest)
      else siblings.nameAt (label :: rest) := by
  by_cases same : c = label
  · cases rest with
    | nil => simp [nameAt, find?, same]
    | cons d rest => simp [nameAt, find?, same]
  · simp [nameAt, find?, same]

theorem nameAt_path (name : String) (label : Char) (rest query : List Char) (next : Nat) :
    (path name label rest next).nameAt query =
      if query = label :: rest then some name else none := by
  induction rest generalizing label query next with
  | nil =>
    cases query with
    | nil => simp
    | cons c tail =>
      rw [path, nameAt_cons]
      by_cases same : label = c
      · subst same
        simp
      · simp [same, Ne.symm same]
  | cons d rest ih =>
    cases query with
    | nil => simp
    | cons c tail =>
      rw [path, nameAt_cons, ih]
      by_cases same : label = c
      · subst same
        by_cases ends : tail = []
        · simp [ends]
        · simp [ends]
      · simp [same, Ne.symm same]

theorem insert_eq_none_iff :
    forest.insert name next label rest = none ↔ (forest.nameAt (label :: rest)).isSome := by
  induction forest generalizing label rest with
  | nil => simp [insert]
  | cons c id stored children siblings below beside =>
    rw [insert.eq_def, nameAt_cons]
    by_cases same : c = label
    · cases rest with
      | nil => cases stored <;> simp [same]
      | cons d rest => simpa [same] using below
    · simpa [same] using beside

/-- A name ends at the node itself, below it, or beside it. -/
theorem insert_cons_cases {c : Char} {id : Nat} {stored : Option String}
    {children siblings : Forest}
    (h : (cons c id stored children siblings).insert name next label rest = some (node, grown)) :
    (c = label ∧ rest = [] ∧ stored = none ∧ node = id ∧
      grown = cons c id (some name) children siblings) ∨
    (c = label ∧ ∃ d tail below, rest = d :: tail ∧
      children.insert name next d tail = some (node, below) ∧
      grown = cons c id stored below siblings) ∨
    (c ≠ label ∧ ∃ beside, siblings.insert name next label rest = some (node, beside) ∧
      grown = cons c id stored children beside) := by
  rw [insert.eq_def] at h
  by_cases same : c = label
  · cases rest with
    | nil =>
      cases stored with
      | none =>
        simp only [same, if_true, Option.some.injEq, Prod.mk.injEq] at h
        exact .inl ⟨same, rfl, rfl, h.1.symm, same ▸ h.2.symm⟩
      | some stored => simp [same] at h
    | cons d tail =>
      simp only [same, if_true, Option.map_eq_some_iff] at h
      obtain ⟨⟨_, below⟩, inserted, h⟩ := h
      rw [Prod.mk.injEq] at h
      exact .inr (.inl ⟨same, d, tail, below, rfl, h.1 ▸ inserted, same ▸ h.2.symm⟩)
  · simp only [same, if_false, Option.map_eq_some_iff] at h
    obtain ⟨⟨_, beside⟩, inserted, h⟩ := h
    rw [Prod.mk.injEq] at h
    exact .inr (.inr ⟨same, beside, h.1 ▸ inserted, h.2.symm⟩)

theorem insert_nil (h : nil.insert name next label rest = some (node, grown)) :
    node = next + rest.length ∧ grown = path name label rest next := by
  rw [insert, Option.some.injEq, Prod.mk.injEq] at h
  exact ⟨h.1.symm, h.2.symm⟩

theorem nameAt_insert (h : forest.insert name next label rest = some (node, grown))
    (query : List Char) :
    grown.nameAt query = if query = label :: rest then some name else forest.nameAt query := by
  induction forest generalizing label rest node grown query with
  | nil =>
    obtain ⟨-, rfl⟩ := insert_nil h
    rw [nameAt_path, nameAt_nil]
  | cons c id stored children siblings below beside =>
    cases query with
    | nil => simp
    | cons d tail =>
      rcases insert_cons_cases h with ⟨rfl, rfl, rfl, -, rfl⟩ |
        ⟨rfl, e, rest, grown, rfl, inserted, rfl⟩ | ⟨differs, grown, inserted, rfl⟩
      · rw [nameAt_cons, nameAt_cons]
        by_cases matched : c = d
        · by_cases ends : tail = [] <;> simp [matched, ends]
        · simp [matched, Ne.symm matched]
      · rw [nameAt_cons, nameAt_cons, below inserted]
        by_cases matched : c = d
        · by_cases ends : tail = [] <;> simp [matched, ends]
        · simp [matched, Ne.symm matched]
      · rw [nameAt_cons, nameAt_cons, beside inserted]
        by_cases matched : c = d
        · subst matched
          simp [differs]
        · simp [matched]

/-- Every node ends a name or goes on to longer ones. -/
def Ended : Forest → Prop
  | nil => True
  | cons _ _ name children siblings =>
    (name = none → children ≠ nil) ∧ children.Ended ∧ siblings.Ended

theorem path_ne_nil (name : String) (label : Char) (rest : List Char) (next : Nat) :
    path name label rest next ≠ nil := by
  cases rest <;> simp [path]

theorem ended_path (name : String) (label : Char) (rest : List Char) (next : Nat) :
    (path name label rest next).Ended := by
  induction rest generalizing label next with
  | nil => simp [path, Ended]
  | cons d rest ih => exact ⟨fun _ => path_ne_nil _ _ _ _, ih _ _, trivial⟩

theorem insert_ne_nil (h : forest.insert name next label rest = some (node, grown)) :
    grown ≠ nil := by
  have ends := nameAt_insert h (label :: rest)
  rw [if_pos rfl] at ends
  rintro rfl
  simp at ends

theorem Ended.insert (h : forest.insert name next label rest = some (node, grown))
    (ended : forest.Ended) : grown.Ended := by
  induction forest generalizing label rest node grown with
  | nil =>
    obtain ⟨-, rfl⟩ := insert_nil h
    exact ended_path _ _ _ _
  | cons c id stored children siblings below beside =>
    obtain ⟨goesOn, ended, ended'⟩ := ended
    rcases insert_cons_cases h with ⟨-, -, -, -, rfl⟩ | ⟨-, d, tail, grown, -, inserted, rfl⟩ |
      ⟨-, grown, inserted, rfl⟩
    · refine ⟨?_, ended, ended'⟩
      rintro ⟨⟩
    · exact ⟨fun _ => insert_ne_nil inserted, below inserted ended, ended'⟩
    · exact ⟨goesOn, ended, beside inserted ended'⟩

theorem names_path (name : String) (label : Char) (rest : List Char) (next : Nat) :
    (path name label rest next).names = [name] := by
  induction rest generalizing label next with
  | nil => rfl
  | cons d rest ih => simp [path, names, ih]

theorem mem_names_insert (h : forest.insert name next label rest = some (node, grown))
    (other : String) : other ∈ grown.names ↔ other = name ∨ other ∈ forest.names := by
  induction forest generalizing label rest node grown with
  | nil =>
    obtain ⟨-, rfl⟩ := insert_nil h
    simp [names_path, names]
  | cons c id stored children siblings below beside =>
    rcases insert_cons_cases h with ⟨-, -, rfl, -, rfl⟩ | ⟨-, d, tail, grown, -, inserted, rfl⟩ |
      ⟨-, grown, inserted, rfl⟩
    · simp [names]
    · simp only [names, List.mem_append, below inserted]
      tauto
    · simp only [names, List.mem_append, beside inserted]
      tauto

end Forest

namespace Trie

variable {trie : Trie} {names earlier : List String} {name : String}

/-- The trie spells just these names, and each of its nodes leads to one of them. -/
structure Holds (trie : Trie) (names : List String) : Prop where
  nameAt_iff : ∀ query name,
    trie.branches.nameAt query = some name ↔ name ∈ names ∧ name.toList = query
  ended : trie.branches.Ended
  mem_iff : ∀ name, name ∈ trie.branches.names ↔ name ∈ names

theorem holds_empty : empty.Holds [] where
  nameAt_iff := by simp [empty]
  ended := trivial
  mem_iff := by simp [empty, Forest.names]

theorem Holds.insert (h : trie.Holds names) (nonempty : name ≠ "") (fresh : name ∉ names) :
    ∃ grown, (·.1) <$> trie.insert name = .ok grown ∧ grown.Holds (names ++ [name]) := by
  cases spelled : name.toList with
  | nil => exact absurd (String.toList_eq_nil_iff.1 spelled) nonempty
  | cons label rest =>
    cases inserted : trie.branches.insert name trie.size label rest with
    | none =>
      obtain ⟨other, found⟩ := Option.isSome_iff_exists.1 (Forest.insert_eq_none_iff.1 inserted)
      obtain ⟨member, same⟩ := (h.nameAt_iff _ _).1 found
      rw [← spelled] at same
      exact absurd (String.toList_inj.1 same ▸ member) fresh
    | some result =>
      obtain ⟨node, branches⟩ := result
      refine ⟨⟨branches, max trie.size (node + 1)⟩, ?_, ?_, h.ended.insert inserted, ?_⟩
      · simp only [Trie.insert, spelled, inserted]
        rfl
      · intro query other
        rw [Forest.nameAt_insert inserted]
        by_cases ends : query = label :: rest
        · subst ends
          rw [if_pos rfl, Option.some.injEq]
          constructor
          · rintro rfl
            exact ⟨by simp, spelled⟩
          · rintro ⟨-, same⟩
            exact String.toList_inj.1 (spelled.trans same.symm)
        · rw [if_neg ends, h.nameAt_iff]
          constructor
          · rintro ⟨member, same⟩
            exact ⟨by simp [member], same⟩
          · rintro ⟨member, rfl⟩
            rcases List.mem_append.1 member with member | member
            · exact ⟨member, rfl⟩
            · rw [List.mem_singleton.1 member] at ends
              exact absurd spelled ends
      · intro other
        rw [Forest.mem_names_insert inserted, h.mem_iff]
        simp [or_comm]

theorem Holds.insertAll (h : trie.Holds earlier) (distinct : (earlier ++ names).Nodup)
    (nonempty : "" ∉ names) :
    ∃ grown, names.foldlM (fun trie name => (·.1) <$> trie.insert name) trie = .ok grown ∧
      grown.Holds (earlier ++ names) := by
  induction names generalizing trie earlier with
  | nil => exact ⟨trie, rfl, by simpa using h⟩
  | cons name names ih =>
    have fresh : name ∉ earlier := fun member =>
      (List.nodup_append.1 distinct).2.2 name member name List.mem_cons_self rfl
    obtain ⟨next, inserted, holds⟩ := h.insert (by rintro rfl; simp at nonempty) fresh
    obtain ⟨grown, rest, holds⟩ :=
      ih holds (by simpa using distinct) fun member => nonempty (List.mem_cons_of_mem _ member)
    refine ⟨grown, ?_, by simpa using holds⟩
    rw [List.foldlM_cons, inserted]
    exact rest

theorem ofNames_of_nodup (distinct : names.Nodup) (nonempty : "" ∉ names) :
    ∃ trie, ofNames names = .ok trie ∧ trie.Holds names :=
  holds_empty.insertAll distinct nonempty

theorem ofNames_of_empty (distinct : names.Nodup) (member : "" ∈ names) :
    ofNames names = .error .emptyName := by
  obtain ⟨before, after, rfl, first⟩ := List.eq_append_cons_of_mem member
  obtain ⟨grown, done, -⟩ := ofNames_of_nodup (List.nodup_append.1 distinct).1 first
  rw [ofNames] at done ⊢
  rw [List.foldlM_append, done]
  rfl

end Trie

end TrieDispatch
