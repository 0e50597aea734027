import TrieDispatch.Proofs.Trie.Insertions

/-!
# The order of the names

Of two names that part after a common beginning that one stands first whose way on was opened first,
by whatever name that was.
-/

namespace TrieDispatch

namespace Trie

/-- The position of the first name that begins with `chars`. -/
def opened (names : List String) (chars : List Char) : Nat :=
  names.findIdx fun name => chars <+: name.toList

/-- One string properly begins the other, or its way on was opened first where they part. -/
inductive Precedes (names : List String) (a b : String) : Prop
  | begins : a.toList <+: b.toList → a ≠ b → Precedes names a b
  | parts {common : List Char} {x y : Char} : common ++ [x] <+: a.toList →
      common ++ [y] <+: b.toList → x ≠ y →
      opened names (common ++ [x]) < opened names (common ++ [y]) → Precedes names a b

variable {names : List String} {name a b : String} {chars : List Char}

theorem opened_lt_iff :
    opened names chars < names.length ↔ ∃ name ∈ names, chars <+: name.toList := by
  simp [opened, List.findIdx_lt_length]

theorem opened_concat_of_lt (known : opened names chars < names.length) (name : String) :
    opened (names ++ [name]) chars = opened names chars := by
  rw [opened, List.findIdx_append]
  exact if_pos known

theorem opened_le_concat (names : List String) (name : String) (chars : List Char) :
    opened names chars ≤ opened (names ++ [name]) chars := by
  by_cases known : opened names chars < names.length
  · rw [opened_concat_of_lt known]
  · have bound : opened names chars ≤ names.length := List.findIdx_le_length
    rw [opened.eq_def (names ++ [name]), List.findIdx_append]
    split
    · exact Nat.le_refl _
    · omega

theorem opened_lt_concat {other : List Char} (earlier : opened names chars < opened names other)
    (name : String) : opened (names ++ [name]) chars < opened (names ++ [name]) other := by
  have bound : opened names other ≤ names.length := List.findIdx_le_length
  rw [opened_concat_of_lt (Nat.lt_of_lt_of_le earlier bound)]
  exact Nat.lt_of_lt_of_le earlier (opened_le_concat names name other)

theorem eq_of_begins {common : List Char} {x y : Char} (left : common ++ [x] <+: chars)
    (right : common ++ [y] <+: chars) : x = y := by
  have same := (List.prefix_of_prefix_length_le left right (by simp)).eq_of_length (by simp)
  simpa using same

theorem length_le_of_parts {common other left right : List Char} {x y u v : Char} (apart : x ≠ y)
    (begins : common ++ [x] <+: left) (begins' : common ++ [y] <+: right)
    (agrees : other ++ [u] <+: left) (agrees' : other ++ [v] <+: right) :
    other.length ≤ common.length := by
  by_contra shorter
  have longest : other <+: left := (List.prefix_append _ _).trans agrees
  have longest' : other <+: right := (List.prefix_append _ _).trans agrees'
  have first : common ++ [x] <+: other :=
    List.prefix_of_prefix_length_le begins longest (by simp; omega)
  have second : common ++ [y] <+: other :=
    List.prefix_of_prefix_length_le begins' longest' (by simp; omega)
  exact apart (eq_of_begins first second)

theorem Precedes.asymm (h : Precedes names a b) (h' : Precedes names b a) : False := by
  cases h with
  | begins ahead differ =>
    cases h' with
    | begins behind _ =>
      exact differ (String.toList_inj.1 (ahead.eq_of_length_le behind.length_le))
    | parts left right apart _ =>
      exact apart (eq_of_begins left (right.trans ahead))
  | @parts common x y left right apart earlier =>
    cases h' with
    | begins behind _ => exact apart (eq_of_begins left (right.trans behind))
    | @parts other u v left' right' apart' earlier' =>
      have short := length_le_of_parts apart left right right' left'
      have long := length_le_of_parts apart'.symm right' left' left right
      have same : (common ++ [x]).length = (other ++ [v]).length := by simp; omega
      have same' : (common ++ [y]).length = (other ++ [u]).length := by simp; omega
      have first := List.prefix_of_prefix_length_le left right' same.le
      have second := List.prefix_of_prefix_length_le right left' same'.le
      rw [first.eq_of_length same, second.eq_of_length same'] at earlier
      exact Nat.lt_asymm earlier earlier'

end Trie

namespace Forest

open Trie (opened opened_lt_iff opened_lt_concat opened_concat_of_lt Precedes)

def labels (forest : Forest) : List Char := forest.edges.map Prod.fst

/-- Below `way` each node has been opened by one of the names, siblings in the order of these, and
names end where they are spelled. -/
def Ordered (names : List String) : (way : List Char) → Forest → Prop
  | _, nil => True
  | way, cons label _ stored children siblings =>
    (∀ name ∈ stored, name.toList = way ++ [label]) ∧
      opened names (way ++ [label]) < names.length ∧
      (∀ later ∈ siblings.labels,
        opened names (way ++ [label]) < opened names (way ++ [later])) ∧
      children.Ordered names (way ++ [label]) ∧ siblings.Ordered names way

variable {forest grown : Forest} {names : List String} {name : String} {way rest : List Char}
  {label : Char} {next node : Nat}

theorem labels_cons (c : Char) (id : Nat) (stored : Option String) (children siblings : Forest) :
    (cons c id stored children siblings).labels = c :: siblings.labels := rfl

theorem labels_path (name : String) (label : Char) (rest : List Char) (next : Nat) :
    (path name label rest next).labels = [label] := by
  cases rest <;> rfl

theorem mem_labels_insert (inserted : forest.insert name next label rest = some (node, grown))
    (later : Char) : later ∈ grown.labels ↔ later ∈ forest.labels ∨ later = label := by
  induction forest generalizing grown with
  | nil =>
    obtain ⟨-, rfl⟩ := insert_nil inserted
    rw [labels_path, List.mem_singleton]
    simp [labels, edges]
  | cons c id stored children siblings below beside =>
    rcases insert_cons_cases inserted with ⟨rfl, -, -, -, rfl⟩ | ⟨rfl, d, tail, grown, -, -, rfl⟩ |
      ⟨-, grown, further, rfl⟩
    · simp only [labels_cons, List.mem_cons]
      tauto
    · simp only [labels_cons, List.mem_cons]
      tauto
    · simp only [labels_cons, List.mem_cons, beside further]
      tauto

theorem mem_labels_of_nameAt (found : (forest.nameAt (label :: rest)).isSome) :
    label ∈ forest.labels := by
  induction forest with
  | nil => simp at found
  | cons c id stored children siblings below beside =>
    rw [nameAt_cons] at found
    rw [labels_cons, List.mem_cons]
    by_cases here : c = label
    · exact .inl here.symm
    · rw [if_neg here] at found
      exact .inr (beside found)

theorem Ordered.concat (ordered : forest.Ordered names way) (name : String) :
    forest.Ordered (names ++ [name]) way := by
  induction forest generalizing way with
  | nil => trivial
  | cons label id stored children siblings below beside =>
    obtain ⟨spelled, known, earlier, inside, after⟩ := ordered
    refine ⟨spelled, ?_, fun later member => opened_lt_concat (earlier later member) name,
      below inside, beside after⟩
    rw [opened_concat_of_lt known, List.length_append]
    exact Nat.lt_add_right _ known

theorem opened_last (names : List String) (spelled : name.toList = way ++ label :: rest) :
    opened (names ++ [name]) (way ++ [label]) < (names ++ [name]).length :=
  opened_lt_iff.2 ⟨name, by simp, rest, by simp [spelled]⟩

theorem ordered_path (names : List String) (spelled : name.toList = way ++ label :: rest)
    (next : Nat) : (path name label rest next).Ordered (names ++ [name]) way := by
  have known := opened_last names spelled
  induction rest generalizing way label next with
  | nil => simpa [path, Ordered, labels, edges, spelled] using known
  | cons d rest ih =>
    have further : name.toList = (way ++ [label]) ++ d :: rest := by simp [spelled]
    have inside := ih further (next + 1) (opened_last names further)
    simpa [path, Ordered, labels, edges, inside] using known

/-- Insertion keeps the order where the earlier names that go the same way end in the forest. -/
theorem Ordered.insert (ordered : forest.Ordered names way)
    (inserted : forest.insert name next label rest = some (node, grown))
    (spelled : name.toList = way ++ label :: rest)
    (complete : ∀ other ∈ names, ∀ more, other.toList = way ++ label :: more →
      (forest.nameAt (label :: more)).isSome) :
    grown.Ordered (names ++ [name]) way := by
  induction forest generalizing label rest way node grown with
  | nil =>
    obtain ⟨-, rfl⟩ := insert_nil inserted
    exact ordered_path names spelled next
  | cons c id stored children siblings below beside =>
    obtain ⟨ends', known', earlier', inside', after'⟩ := ordered.concat name
    obtain ⟨-, known, earlier, inside, after⟩ := ordered
    rcases insert_cons_cases inserted with ⟨rfl, rfl, rfl, -, rfl⟩ |
      ⟨rfl, d, tail, grown, rfl, further, rfl⟩ | ⟨differs, grown, further, rfl⟩
    · refine ⟨?_, known', earlier', inside', after'⟩
      simp [spelled]
    · refine ⟨ends', known', earlier', below inside further (by simp [spelled]) ?_, after'⟩
      intro other member more same
      have found := complete other member (d :: more) (by simp [same])
      simpa [nameAt_cons] using found
    · refine ⟨ends', known', fun later member => opened_lt_concat ?_ name, inside',
        beside after further spelled ?_⟩
      · by_cases old : later ∈ siblings.labels
        · exact earlier later old
        · -- No name has gone this way before, or its end would be in the forest.
          have new := ((mem_labels_insert further later).1 member).resolve_left old
          subst new
          have unopened : ¬opened names (way ++ [later]) < names.length := by
            intro known
            obtain ⟨other, member, more, same⟩ := opened_lt_iff.1 known
            have found := complete other member more (by simp [← same])
            exact old (mem_labels_of_nameAt (by simpa [nameAt_cons, differs] using found))
          exact Nat.lt_of_lt_of_le known (Nat.le_of_not_lt unopened)
      · intro other member more same
        have found := complete other member more same
        simpa [nameAt_cons, differs] using found

theorem Ordered.begins (ordered : forest.Ordered names way) (member : name ∈ forest.names) :
    ∃ label ∈ forest.labels, way ++ [label] <+: name.toList := by
  induction forest generalizing way with
  | nil => simp [Forest.names] at member
  | cons label id stored children siblings below beside =>
    obtain ⟨ends, -, -, inside, after⟩ := ordered
    simp only [Forest.names, List.mem_append, Option.mem_toList] at member
    rcases member with here | inChildren | inSiblings
    · exact ⟨label, List.mem_cons_self, by rw [ends name here]⟩
    · obtain ⟨further, -, begins⟩ := below inside inChildren
      exact ⟨label, List.mem_cons_self, (List.prefix_append _ _).trans begins⟩
    · obtain ⟨later, member, begins⟩ := beside after inSiblings
      exact ⟨later, List.mem_cons_of_mem _ member, begins⟩

theorem Ordered.pairwise_names (ordered : forest.Ordered names way) :
    forest.names.Pairwise (Precedes names) := by
  induction forest generalizing way with
  | nil => exact .nil
  | cons label id stored children siblings below beside =>
    obtain ⟨ends, -, earlier, inside, after⟩ := ordered
    -- What stands at the node or below it comes before what stands beside it.
    have across (a b : String) (here : way ++ [label] <+: a.toList) (there : b ∈ siblings.names) :
        Precedes names a b := by
      obtain ⟨later, member, begins⟩ := after.begins there
      have first := earlier later member
      exact .parts here begins (by rintro rfl; exact Nat.lt_irrefl _ first) first
    have down (a b : String) (here : a ∈ stored) (there : b ∈ children.names) :
        Precedes names a b := by
      obtain ⟨further, -, begins⟩ := inside.begins there
      rw [← ends a here] at begins
      refine .begins ((List.prefix_append _ _).trans begins) ?_
      rintro rfl
      have longer := begins.length_le
      rw [List.length_append, List.length_singleton] at longer
      omega
    rw [Forest.names, List.pairwise_append, List.pairwise_append]
    refine ⟨?_, ⟨below inside, beside after, ?_⟩, ?_⟩
    · cases stored <;> simp
    · intro a inChildren b inSiblings
      obtain ⟨further, -, begins⟩ := inside.begins inChildren
      exact across a b ((List.prefix_append _ _).trans begins) inSiblings
    · intro a here b there
      rw [Option.mem_toList] at here
      rcases List.mem_append.1 there with inChildren | inSiblings
      · exact down a b here inChildren
      · exact across a b (by rw [ends a here]) inSiblings

end Forest

namespace Trie

variable {names : List String} {name a b : String}

theorem exists_insert_branches {trie grown : Trie} {node : Nat}
    (inserted : trie.insert name = .ok (grown, node)) :
    ∃ label rest, name.toList = label :: rest ∧
      trie.branches.insert name trie.size label rest = some (node, grown.branches) := by
  rcases trie.insert_cases name with ⟨-, failed⟩ | ⟨label, rest, spelled, ⟨-, failed⟩ |
    ⟨last, branches, below, done⟩⟩
  · cases failed.symm.trans inserted
  · cases failed.symm.trans inserted
  · cases done.symm.trans inserted
    exact ⟨label, rest, spelled, below⟩

theorem holds_insertEach (names : List String) :
    (empty.insertEach names).1.Holds (accepted names) := by
  induction names using List.reverseRecOn with
  | nil => exact holds_empty
  | append_singleton names name ih =>
    rw [insertEach_concat, accepted_concat]
    rcases (tabled_insertEach names).insert_cases name with ⟨-, failed, -⟩ | ⟨-, failed, -⟩ |
      ⟨nonempty, fresh, grown, node, inserted, -⟩
    · rw [failed]
      exact ih
    · rw [failed]
      exact ih
    · obtain ⟨other, mapped, holds⟩ := ih.insert nonempty fresh
      rw [inserted] at mapped
      obtain rfl := Except.ok.inj mapped
      rw [inserted]
      exact holds

theorem ordered_insertEach (names : List String) :
    (empty.insertEach names).1.branches.Ordered (accepted names) [] := by
  induction names using List.reverseRecOn with
  | nil => trivial
  | append_singleton names name ih =>
    rw [insertEach_concat, accepted_concat]
    cases inserted : (empty.insertEach names).1.insert name with
    | error error => exact ih
    | ok result =>
      obtain ⟨label, rest, spelled, below⟩ := exists_insert_branches inserted
      refine ih.insert below spelled fun other member more same => ?_
      have ends := ((holds_insertEach names).nameAt_iff _ other).2 ⟨member, same⟩
      exact Option.isSome_iff_exists.2 ⟨other, ends⟩

theorem idxOf_lt_iff_of_pairwise {R : String → String → Prop} {elements : List String}
    (pairwise : elements.Pairwise R) (asymm : ∀ {a b}, R a b → R b a → False)
    (member : a ∈ elements) (member' : b ∈ elements) (differ : a ≠ b) :
    elements.idxOf a < elements.idxOf b ↔ R a b := by
  have related {a b : String} (member : a ∈ elements) (member' : b ∈ elements)
      (before : elements.idxOf a < elements.idxOf b) : R a b := by
    have inside := List.idxOf_lt_length_of_mem member
    have inside' := List.idxOf_lt_length_of_mem member'
    have far := List.pairwise_iff_getElem.1 pairwise _ _ inside inside' before
    rwa [List.getElem_idxOf, List.getElem_idxOf] at far
  refine ⟨related member member', fun ahead => ?_⟩
  by_contra behind
  have apart : elements.idxOf a ≠ elements.idxOf b := fun same =>
    differ ((List.idxOf_inj member).1 same)
  exact asymm ahead (related member' member (by omega))

/-- Each name that was accepted comes once, and the names come in preorder: a name stands before the
names that it begins, and where two names part, that one stands first whose way on was opened first.
Names that were refused open nothing. -/
theorem names_in_order (names : List String) :
    let trie := (empty.insertEach names).1
    trie.names.Nodup ∧ (∀ name, name ∈ trie.names ↔ name ∈ accepted names) ∧
      ∀ a ∈ accepted names, ∀ b ∈ accepted names, a ≠ b →
        (trie.names.idxOf a < trie.names.idxOf b ↔ Precedes (accepted names) a b) := by
  intro trie
  have holds := holds_insertEach names
  have pairwise := (ordered_insertEach names).pairwise_names
  refine ⟨(tabled_insertEach names).nodup_names, holds.mem_iff, fun a member b member' differ => ?_⟩
  exact idxOf_lt_iff_of_pairwise pairwise Precedes.asymm ((holds.mem_iff a).2 member)
    ((holds.mem_iff b).2 member') differ

example : (empty.insertEach ["se", "dec", "", "set", "s", "se"]).1.names =
    ["s", "se", "set", "dec"] := by decide

end Trie

end TrieDispatch
