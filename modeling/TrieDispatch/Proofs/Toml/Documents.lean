import TrieDispatch.Proofs.Toml.Lines

/-! # Reading back written documents -/

namespace TrieDispatch.Toml

/-- Reading a document is building the table of its lines. -/
theorem parse?_flatMap {lines : List Line} (writable : ∀ line ∈ lines, line.Writable) :
    parse? (String.ofList (lines.flatMap Line.chars)) =
      ((lines.map Line.statement).foldlM Building.add ⟨[], []⟩).map Building.entries := by
  have enough := Line.length_le_flatMap writable
  have read := Line.statements_flatMap writable (Nat.lt_succ_of_le enough)
  have unmarked : ∀ more, lines.flatMap Line.chars ≠ '\uFEFF' :: more := by
    rintro more same
    cases lines with
    | nil => cases same
    | cons line lines =>
      obtain ⟨c, _, spelled, -, apart⟩ :=
        Line.exists_chars_cons (writable line List.mem_cons_self)
      rw [List.flatMap_cons, spelled] at same
      exact apart (List.cons.inj same).1
  rw [parse?, String.toList_ofList]
  split
  next same => exact absurd same (unmarked _)
  next =>
    rw [read]
    show Option.bind ((lines.map Line.statement).foldlM Building.add ⟨[], []⟩) _ = _
    cases (lines.map Line.statement).foldlM Building.add ⟨[], []⟩ <;> rfl

/-! ## Tables -/

structure Table where
  name : String
  pairs : List (String × Scalar)

namespace Table

def lines (table : Table) : List Line :=
  .header table.name :: table.pairs.map fun (key, scalar) => .pair key scalar

def entries (table : Table) : Entries := table.pairs.map fun (key, scalar) => (key, scalar.value)

structure Writable (table : Table) : Prop where
  name : Bare table.name
  keys : ∀ entry ∈ table.pairs, Bare entry.1 ∧ entry.2.Writable
  distinct : (table.pairs.map Prod.fst).Nodup

end Table

namespace Entries

variable {entries : Entries} {key : String} {old value : Value}

theorem lookup_of_notMem (fresh : key ∉ entries.map Prod.fst) : entries.lookup key = none := by
  rw [List.lookup_eq_none_iff]
  intro entry member
  rw [bne_iff_ne]
  rintro rfl
  exact fresh (List.mem_map_of_mem member)

theorem set_append (fresh : key ∉ entries.map Prod.fst) (rest : Entries) :
    Entries.set (entries ++ rest) key value = entries ++ Entries.set rest key value := by
  induction entries with
  | nil => rfl
  | cons entry entries ih =>
    rw [List.map_cons, List.mem_cons, not_or] at fresh
    rw [List.cons_append, Entries.set, if_neg (Ne.symm fresh.1), ih fresh.2, List.cons_append]

theorem set_of_notMem (fresh : key ∉ entries.map Prod.fst) :
    entries.set key value = entries ++ [(key, value)] := by
  rw [← List.append_nil entries, set_append fresh, List.append_nil]
  rfl

theorem set_last (fresh : key ∉ entries.map Prod.fst) :
    Entries.set (entries ++ [(key, old)]) key value = entries ++ [(key, value)] :=
  (set_append fresh _).trans (congrArg _ (if_pos rfl))

theorem insertAt_of_notMem (fresh : key ∉ entries.map Prod.fst) :
    entries.insertAt [key] value = some (entries ++ [(key, value)]) := by
  show (if (entries.lookup key).isSome then none else some (entries.set key value)) = _
  rw [lookup_of_notMem fresh, set_of_notMem fresh]
  rfl

end Entries

namespace Table

variable {table : Table} {tables : List Table} {done inner : Entries} {name : String}

def entry (table : Table) : String × Value := (table.name, .table .header table.entries)

theorem add_header (fresh : name ∉ done.map Prod.fst) (header : List String) :
    Building.add ⟨done, header⟩ (.header [name]) =
      some ⟨done ++ [(name, .table .header [])], [name]⟩ := by
  have opened : done.openTable [name] = some (done ++ [(name, .table .header [])]) := by
    simp only [Entries.openTable, List.getLast?_singleton, Option.bind_some,
      List.dropLast_singleton, Entries.change, Entries.lookup_of_notMem fresh,
      Entries.set_of_notMem fresh]
  rw [Building.add, opened]
  rfl

theorem add_pair (fresh : name ∉ done.map Prod.fst) {key : String} {value : Value}
    (new : key ∉ inner.map Prod.fst) :
    Building.add ⟨done ++ [(name, .table .header inner)], [name]⟩ (.pair [key] value) =
      some ⟨done ++ [(name, .table .header (inner ++ [(key, value)]))], [name]⟩ := by
  have found : (done ++ [(name, Value.table .header inner)]).lookup name =
      some (.table .header inner) := by
    rw [List.lookup_append, Entries.lookup_of_notMem fresh, Option.none_or, List.lookup_cons_self]
  rw [Building.add, Entries.change, found]
  show Option.map _ (Option.map _ (inner.insertAt [key] value)) = _
  rw [Entries.insertAt_of_notMem new, Option.map_some, Entries.set_last fresh]
  rfl

theorem add_pairs (fresh : name ∉ done.map Prod.fst) (inner : Entries)
    (pairs : List (String × Scalar))
    (distinct : (inner.map Prod.fst ++ pairs.map Prod.fst).Nodup) :
    (pairs.map fun (key, scalar) => Statement.pair [key] scalar.value).foldlM Building.add
        ⟨done ++ [(name, .table .header inner)], [name]⟩ =
      some ⟨done ++ [(name, .table .header
        (inner ++ pairs.map fun (key, scalar) => (key, scalar.value)))], [name]⟩ := by
  induction pairs generalizing inner with
  | nil =>
    rw [List.map_nil, List.map_nil, List.append_nil]
    rfl
  | cons pair pairs ih =>
    obtain ⟨key, scalar⟩ := pair
    have new : key ∉ inner.map Prod.fst := by
      rw [List.nodup_append] at distinct
      intro member
      exact distinct.2.2 key member key List.mem_cons_self rfl
    rw [List.map_cons, List.foldlM_cons, add_pair fresh new]
    show List.foldlM _ _ _ = _
    rw [ih _ (by simpa using distinct)]
    simp

theorem add_lines (fresh : table.name ∉ done.map Prod.fst) (header : List String)
    (distinct : (table.pairs.map Prod.fst).Nodup) :
    (table.lines.map Line.statement).foldlM Building.add ⟨done, header⟩ =
      some ⟨done ++ [table.entry], [table.name]⟩ := by
  have pairs := add_pairs fresh [] table.pairs distinct
  rw [lines, List.map_cons, List.foldlM_cons]
  show (Building.add _ (.header _)).bind _ = _
  rw [add_header fresh, Option.bind_some, List.map_map]
  exact pairs

theorem writable_of_mem_lines (writable : table.Writable) :
    ∀ line ∈ table.lines, line.Writable := by
  refine List.forall_mem_cons.2 ⟨writable.name, fun line member => ?_⟩
  obtain ⟨entry, known, rfl⟩ := List.mem_map.1 member
  exact writable.keys entry known

theorem add_tables (writable : ∀ table ∈ tables, table.Writable) (done : Entries)
    (header : List String)
    (distinct : (done.map Prod.fst ++ tables.map Table.name).Nodup) :
    ∃ last, ((tables.flatMap lines).map Line.statement).foldlM Building.add ⟨done, header⟩ =
      some ⟨done ++ tables.map entry, last⟩ := by
  induction tables generalizing done header with
  | nil => exact ⟨header, by simp⟩
  | cons table tables ih =>
    obtain ⟨own, writable⟩ := List.forall_mem_cons.1 writable
    have fresh : table.name ∉ done.map Prod.fst := by
      rw [List.nodup_append] at distinct
      intro member
      exact distinct.2.2 _ member _ List.mem_cons_self rfl
    obtain ⟨last, rest⟩ := ih writable (done ++ [table.entry]) [table.name]
      (by simpa [entry] using distinct)
    refine ⟨last, ?_⟩
    rw [List.flatMap_cons, List.map_append, List.foldlM_append, add_lines fresh _ own.distinct]
    show List.foldlM _ _ _ = _
    rw [rest]
    simp

end Table

def written (tables : List Table) : String :=
  String.ofList ((tables.flatMap Table.lines).flatMap Line.chars)

/-- A written document is read back. -/
theorem parse?_written {tables : List Table} (writable : ∀ table ∈ tables, table.Writable)
    (distinct : (tables.map Table.name).Nodup) :
    parse? (written tables) = some (tables.map Table.entry) := by
  obtain ⟨last, built⟩ := Table.add_tables writable [] [] distinct
  have lines : ∀ line ∈ tables.flatMap Table.lines, line.Writable := by
    intro line member
    obtain ⟨table, known, member⟩ := List.mem_flatMap.1 member
    exact Table.writable_of_mem_lines (writable table known) line member
  rw [written, parse?_flatMap lines, built]
  rfl

end TrieDispatch.Toml
