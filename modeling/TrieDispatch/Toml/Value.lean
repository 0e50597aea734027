/-! Tables keep how they were written, since that decides what may still be added to them. -/

namespace TrieDispatch.Toml

inductive TableKind where
  /-- Written as a value between braces; closed to any addition. -/
  | inlined
  | header
  /-- Opened only by the header of a table inside it. -/
  | implied
  | dotted
  deriving DecidableEq, Repr, Inhabited

inductive Value where
  | boolean (flag : Bool)
  | integer (number : Int)
  | string (text : String)
  | float
  | date
  | array (items : List Value)
  | table (kind : TableKind) (entries : List (String × Value))
  /-- Tables opened one after the other by double-bracket headers. -/
  | tables (elements : List (List (String × Value)))
  deriving Inhabited

/-- The keys of a table with their values, in the order of their first appearance. -/
abbrev Entries := List (String × Value)

namespace Entries

def set (entries : Entries) (key : String) (value : Value) : Entries :=
  match entries with
  | [] => [(key, value)]
  | entry :: rest => if entry.1 = key then (key, value) :: rest else entry :: set rest key value

/-- Changes the table reached by `path` from the table `entries` of the given kind. Missing tables
are opened, by the dotted key or by the header that names them. A table with a header of its own
admits no dotted keys, and only the last of several double-bracket tables is open. -/
def change (dotted : Bool) (f : TableKind → Entries → Option Entries) :
    (path : List String) → TableKind → Entries → Option Entries
  | [], kind, entries => f kind entries
  | key :: rest, _, entries =>
    match entries.lookup key with
    | none =>
      let kind := if dotted then .dotted else .implied
      (change dotted f rest kind []).map fun inner => entries.set key (.table kind inner)
    | some (.table .inlined _) => none
    | some (.table kind inner) =>
      if dotted && kind == .header then none
      else (change dotted f rest kind inner).map fun inner => entries.set key (.table kind inner)
    | some (.tables elements) =>
      match elements.getLast? with
      | none => none
      | some last =>
        (change dotted f rest .header last).map fun last =>
          entries.set key (.tables (elements.dropLast ++ [last]))
    | some _ => none

/-- Adds a value under a dotted key. The table it goes to was opened by dotted keys as well. -/
def insertAt (entries : Entries) : (path : List String) → Value → Option Entries
  | path, value =>
    match path.getLast? with
    | none => none
    | some key =>
      let outer := path.dropLast
      change true (fun kind inner =>
        if (kind == .dotted) == outer.isEmpty then none
        else if (inner.lookup key).isSome then none
        else some (inner.set key value)) outer .header entries

def openTable (entries : Entries) (path : List String) : Option Entries :=
  path.getLast?.bind fun key =>
    change false (fun _ inner =>
      match inner.lookup key with
      | none => some (inner.set key (.table .header []))
      | some (.table .implied children) => some (inner.set key (.table .header children))
      | some _ => none) path.dropLast .header entries

def openElement (entries : Entries) (path : List String) : Option Entries :=
  path.getLast?.bind fun key =>
    change false (fun _ inner =>
      match inner.lookup key with
      | none => some (inner.set key (.tables [[]]))
      | some (.tables elements) => some (inner.set key (.tables (elements ++ [[]])))
      | some _ => none) path.dropLast .header entries

end Entries

end TrieDispatch.Toml
