import TrieDispatch.Toml.Number

/-! # Documents -/

namespace TrieDispatch.Toml

/-- The values of an array, after the opening bracket. A comma may follow the last. -/
def arrayItems (item : Scan Value) : (fuel : Nat) → Scan (List Value)
  | 0, _ => none
  | fuel + 1, text => do
    match ← skipLines false text with
    | ']' :: rest => return ([], rest)
    | text =>
      let (value, rest) ← item text
      match ← skipLines false rest with
      | ']' :: rest => return ([value], rest)
      | ',' :: rest =>
        let (values, rest) ← arrayItems item fuel rest
        return (value :: values, rest)
      | _ => none

def pair (item : Scan Value) : Scan (List String × Value) := fun text => do
  let (path, rest) ← key text
  match rest with
  | '=' :: rest =>
    let (value, rest) ← item (skipBlanks rest)
    return ((path, value), rest)
  | _ => none

/-- The pairs of an inline table, at least one of them. No comma follows the last. -/
def inlinePairs (item : Scan Value) : (fuel : Nat) → Scan (List (List String × Value))
  | 0, _ => none
  | fuel + 1, text => do
    let (first, rest) ← pair item text
    match skipBlanks rest with
    | '\x7d' :: rest => return ([first], rest)
    | ',' :: rest =>
      let (others, rest) ← inlinePairs item fuel rest
      return (first :: others, rest)
    | _ => none

def inlineTable (item : Scan Value) : Scan Value := fun text => do
  let (pairs, rest) ←
    match skipBlanks text with
    | '\x7d' :: rest => some ([], rest)
    | _ => inlinePairs item (text.length + 1) text
  let entries ← pairs.foldlM
    (fun (entries : Entries) (path, value) => entries.insertAt path value) []
  return (.table .inlined entries, rest)

/-- A value with at most `nesting` arrays and inline tables around any of its parts. -/
def value : (nesting : Nat) → Scan Value
  | 0 => scalar
  | nesting + 1 => fun text =>
    match text with
    | '[' :: rest =>
      (arrayItems (value nesting) (rest.length + 1) rest).map fun (items, rest) =>
        (.array items, rest)
    | '\x7b' :: rest => inlineTable (value nesting) rest
    | _ => scalar text
where
  scalar : Scan Value := fun text =>
    match text with
    | 't' :: 'r' :: 'u' :: 'e' :: rest => some (.boolean true, rest)
    | 'f' :: 'a' :: 'l' :: 's' :: 'e' :: rest => some (.boolean false, rest)
    | '\x22' :: _ | '\x27' :: _ => (string text).map fun (text, rest) => (.string text, rest)
    | _ => number text

def nestingLimit : Nat := 79

inductive Statement where
  | header (path : List String)
  | elementHeader (path : List String)
  | pair (path : List String) (value : Value)

def statement (text : List Char) : Option (Option Statement × List Char) :=
  match text with
  | '[' :: '[' :: rest => do
    let (path, rest) ← key rest
    match rest with
    | ']' :: ']' :: rest => return (some (.elementHeader path), ← endLine rest)
    | _ => none
  | '[' :: rest => do
    let (path, rest) ← key rest
    match rest with
    | ']' :: rest => return (some (.header path), ← endLine rest)
    | _ => none
  | '#' :: _ | '\n' :: _ | '\r' :: _ => (endLine text).map fun rest => (none, rest)
  | _ => do
    let ((path, found), rest) ← pair (value nestingLimit) text
    return (some (.pair path found), ← endLine rest)

def statements : (fuel : Nat) → List Char → Option (List Statement)
  | 0, _ => none
  | fuel + 1, text =>
    match skipBlanks text with
    | [] => some []
    | text => do
      let (first, rest) ← statement text
      let others ← statements fuel rest
      return first.toList ++ others

/-- The table that statements build, with the header that is in force. -/
structure Building where
  entries : Entries
  header : List String

def Building.add (building : Building) : Statement → Option Building
  | .header path =>
    (building.entries.openTable path).map fun entries => ⟨entries, path⟩
  | .elementHeader path =>
    (building.entries.openElement path).map fun entries => ⟨entries, path⟩
  | .pair path value =>
    (building.entries.change false (fun _ inner => inner.insertAt path value) building.header
      .header).map fun entries => { building with entries := entries }

def parse? (text : String) : Option Entries := do
  let chars :=
    match text.toList with
    | '\uFEFF' :: rest => rest
    | chars => chars
  let found ← statements (chars.length + 1) chars
  let built ← found.foldlM Building.add ⟨[], []⟩
  return built.entries

end TrieDispatch.Toml
