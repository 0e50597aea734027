import TrieDispatch.CompileError

/-! # Name tries -/

namespace TrieDispatch

/-- The subtries below one node: the first of them, and those opened after it. -/
inductive Forest where
  | nil
  | cons (label : Char) (id : Nat) (name : Option String) (children siblings : Forest)
  deriving Inhabited, Repr

namespace Forest

def isNil : Forest → Bool
  | nil => true
  | cons .. => false

/-- One path spelling `label` and `rest`, numbered upwards from `next` and ending `name`. -/
def path (name : String) (label : Char) : (rest : List Char) → (next : Nat) → Forest
  | [], next => cons label next (some name) nil nil
  | c :: rest, next => cons label next none (path name c rest (next + 1)) nil

/-- The node where the name ends and the forest that holds it; `none` when a name ends there
already. Nodes that are missing are numbered upwards from `next`. -/
def insert (name : String) (next : Nat) : Forest → Char → List Char → Option (Nat × Forest)
  | nil, label, rest => some (next + rest.length, path name label rest next)
  | cons c id stored children siblings, label, rest =>
    if c = label then
      match rest with
      | [] =>
        match stored with
        | none => some (id, cons c id (some name) children siblings)
        | some _ => none
      | d :: rest =>
        (children.insert name next d rest).map fun (node, children) =>
          (node, cons c id stored children siblings)
    else
      (siblings.insert name next label rest).map fun (node, siblings) =>
        (node, cons c id stored children siblings)

/-- The node reached by spelling `label` and `rest`, and the name that ends there. -/
def find? : Forest → Char → List Char → Option (Nat × Option String)
  | nil, _, _ => none
  | cons c id name children siblings, label, rest =>
    if c = label then
      match rest with
      | [] => some (id, name)
      | d :: rest => children.find? d rest
    else siblings.find? label rest

def names : Forest → List String
  | nil => []
  | cons _ _ name children siblings => name.toList ++ (children.names ++ siblings.names)

def size : Forest → Nat
  | nil => 0
  | cons _ _ _ children siblings => 1 + children.size + siblings.size

def edges : Forest → List (Char × Nat)
  | nil => []
  | cons label id _ _ siblings => (label, id) :: siblings.edges

end Forest

structure Trie where
  branches : Forest
  /-- The number of nodes, the root included. -/
  size : Nat
  deriving Inhabited

namespace Trie

def empty : Trie := ⟨.nil, 1⟩

def isEmpty (trie : Trie) : Bool := trie.size == 1

def insert (trie : Trie) (name : String) : Except CompileError (Trie × Nat) :=
  match name.toList with
  | [] => .error .emptyName
  | label :: rest =>
    match trie.branches.insert name trie.size label rest with
    | none => .error (.duplicateName name)
    | some (node, branches) => .ok (⟨branches, max trie.size (node + 1)⟩, node)

/-- Inserts the names in turn, passing over those that are refused. -/
def insertEach (trie : Trie) : List String → Trie × List (Except CompileError Nat)
  | [] => (trie, [])
  | name :: rest =>
    match trie.insert name with
    | .ok (grown, node) =>
      let (final, answers) := grown.insertEach rest
      (final, .ok node :: answers)
    | .error error =>
      let (final, answers) := trie.insertEach rest
      (final, .error error :: answers)

def ofNames (names : List String) : Except CompileError Trie :=
  names.foldlM (fun trie name => (·.1) <$> trie.insert name) empty

def find? (trie : Trie) (query : String) : Option Nat :=
  match query.toList with
  | [] => some 0
  | label :: rest => (·.1) <$> trie.branches.find? label rest

def contains (trie : Trie) (query : String) : Bool :=
  match query.toList with
  | [] => false
  | label :: rest => (trie.branches.find? label rest).any (·.2.isSome)

def names (trie : Trie) : List String := trie.branches.names

end Trie

end TrieDispatch
