import TrieDispatch.Proofs.Compiling
import TrieDispatch.Proofs.Program.Calls
import TrieDispatch.Proofs.Trie.Insertions

/-! # Emitting any trie with any directory -/

namespace TrieDispatch

open Program

namespace Emission

variable {directory : Directory} {trie : Trie}

theorem ofTrie_of_unknown {name : String}
    (first : trie.names.find? (fun name => (directory.located? name).isNone) = some name) :
    ofTrie directory trie = .error (.unknownHandler name) := by
  rw [ofTrie, Draft.emitForest_of_unknown first]
  rfl

theorem exists_ofTrie_iff : (∃ emission, ofTrie directory trie = .ok emission) ↔
    ∀ name ∈ trie.names, (directory.located? name).isSome := by
  refine ⟨?_, exists_ofTrie⟩
  rintro ⟨emission, emitted⟩ name member
  cases first : trie.names.find? (fun name => (directory.located? name).isNone) with
  | none =>
    have known := List.find?_eq_none.1 first name member
    exact Option.isNone_eq_false_iff.1 (Bool.of_not_eq_true known)
  | some unknown => cases (ofTrie_of_unknown first).symm.trans emitted

end Emission

namespace Forest

variable {directory : Directory} {forest : Forest}

theorem getElem?_of_mem_entries {entry : Nat × Handler}
    (member : entry ∈ forest.entries directory) :
    directory.handlers[entry.1]? = some entry.2 := by
  obtain ⟨name, -, known⟩ := List.mem_filterMap.1 member
  exact (Directory.located?_eq_some known).2

theorem map_name_entries (coherent : directory.Coherent)
    (known : ∀ name ∈ forest.names, (directory.located? name).isSome) :
    (forest.entries directory).map (·.2.name) = forest.names := by
  rw [entries, List.map_filterMap]
  refine (List.filterMap_congr fun name member => ?_).trans List.filterMap_some
  obtain ⟨entry, located⟩ := Option.isSome_iff_exists.1 (known name member)
  rw [located, Option.map_some, coherent.name_of_located? located]

theorem nodup_entries (coherent : directory.Coherent) (distinct : forest.names.Nodup) :
    ((forest.entries directory).map Prod.fst).Nodup := by
  have entries : (forest.entries directory).Nodup := by
    refine distinct.filterMap fun name other entry known known' => ?_
    exact (coherent.name_of_located? known).symm.trans (coherent.name_of_located? known')
  refine entries.map_on fun entry member other member' same => Prod.ext same ?_
  have found := getElem?_of_mem_entries member
  rw [same, getElem?_of_mem_entries member'] at found
  exact (Option.some.inj found).symm

end Forest

/-- Emission of a trie as insertions leave it succeeds just if each of its names has a handler, and
otherwise reports the first that has none. The code has nine instructions for each node below the
root and seven for each name, with four more for each parameter, and calls the handlers of the names
in preorder. -/
theorem emission_outcome {handlers : List Handler} {directory : Directory}
    (accepted : Directory.ofDistinct handlers = .ok directory) (inserted : List String) :
    let trie := (Trie.empty.insertEach inserted).1
    let registered := handlers.map Handler.name
    ((∃ emission, Emission.ofTrie directory trie = .ok emission) ↔
      ∀ name ∈ trie.names, name ∈ registered) ∧
    (∀ name, trie.names.find? (fun name => name ∉ registered) = some name →
      Emission.ofTrie directory trie = .error (.unknownHandler name)) ∧
    ∀ emission, Emission.ofTrie directory trie = .ok emission →
      ∃ entries : List (Nat × Handler), entries.map (·.2.name) = trie.names ∧
        (∀ entry ∈ entries, handlers[entry.1]? = some entry.2 ∧
          entry.1.toUInt16.toNat = entry.1) ∧
        (entries.map Prod.fst).Nodup ∧
        emission.code.size = 8 + 9 * (trie.size - 1) +
          (entries.map fun entry => 7 + 4 * entry.2.arity).sum ∧
        emission.landings.starts.size = trie.size - 1 ∧
        emission.landings.starts.toList.Pairwise (· < ·) ∧
        emission.placeholders.size = (trie.size - 1) + trie.names.length ∧
        emission.code.toList.filter (fun instr => instr.op = .callHandler) =
          entries.map (fun entry => ⟨.callHandler, .handler entry.1.toUInt16⟩) ∧
        ∀ entry ∈ entries, ∃ start, emission.code.Contains start
          (⟨.branchNe, .pending⟩ :: ((entry.2.params.zipIdx.flatMap fun (kind, index) =>
            [.plain .loadArgs, ⟨.loadConst, .const index⟩, .plain .loadElem,
              ⟨.castTo, .kind kind⟩]) ++ [⟨.callHandler, .handler entry.1.toUInt16⟩])) := by
  intro trie registered
  obtain ⟨few, distinct, rfl⟩ := Directory.eq_ofList_of_ofDistinct accepted
  have coherent := Directory.coherent_ofList handlers
  have kept : (Directory.ofList handlers).handlers = handlers.toArray :=
    Directory.handlers_ofList distinct
  have tabled : trie.Tabled (Trie.accepted inserted) := Trie.tabled_insertEach inserted
  have located (name : String) : ((Directory.ofList handlers).located? name).isSome ↔
      name ∈ registered := by
    rw [coherent.isSome_located?_iff, kept]
  have missing : (fun name => ((Directory.ofList handlers).located? name).isNone) =
      fun name => decide (name ∉ registered) := by
    funext name
    rw [Bool.eq_iff_iff, Option.isNone_iff_eq_none, ← Option.not_isSome_iff_eq_none, located,
      decide_eq_true_iff]
  have succeeds : (∃ emission, Emission.ofTrie (.ofList handlers) trie = .ok emission) ↔
      ∀ name ∈ trie.names, name ∈ registered := by
    rw [Emission.exists_ofTrie_iff]
    exact forall₂_congr fun name _ => located name
  refine ⟨succeeds, fun name first => Emission.ofTrie_of_unknown (missing ▸ first),
    fun emission emitted => ?_⟩
  have known := Emission.exists_ofTrie_iff.1 ⟨emission, emitted⟩
  have names : (trie.branches.entries (.ofList handlers)).map (·.2.name) = trie.names :=
    Forest.map_name_entries coherent known
  have nodes : trie.branches.size = trie.size - 1 := tabled.represents.size_branches
  refine ⟨trie.branches.entries (.ofList handlers), names, fun entry member => ?_,
    Forest.nodup_entries coherent tabled.nodup_names, ?_, ?_,
    Emission.pairwise_starts_of_ofTrie emitted, ?_, Emission.calls_of_ofTrie emitted,
    Emission.contains_of_ofTrie emitted⟩
  · have found := Forest.getElem?_of_mem_entries member
    rw [kept, List.getElem?_toArray] at found
    have inside := (List.getElem?_eq_some_iff.1 found).1
    exact ⟨found, Nat.mod_eq_of_lt (Nat.lt_of_lt_of_le inside few)⟩
  · rw [Emission.size_code_of_ofTrie emitted, nodes]
  · rw [Emission.size_starts_of_ofTrie emitted, nodes]
  · rw [Emission.size_placeholders_of_ofTrie emitted, nodes, ← names, List.length_map]

private def alarms : List Handler :=
  [⟨"arm", [.long, .str], fun _ => none⟩, ⟨"off", [], fun _ => none⟩,
    ⟨"armed", [.bool], fun args => args[0]?⟩]

theorem emission_outcome_alarms :
    ∃ directory emission, Directory.ofDistinct alarms = .ok directory ∧
      Emission.ofTrie directory (Trie.empty.insertEach ["armed", "arm", "arm"]).1 = .ok emission ∧
        emission.landings.starts.size = 5 ∧ emission.placeholders.size = 7 ∧
        (emission.code.toList.filter fun instr => instr.op = .callHandler).length = 2 := by
  have accepted : Directory.ofDistinct alarms = .ok (.ofList alarms) :=
    Directory.ofDistinct_of_nodup (by decide) (by decide)
  obtain ⟨succeeds, -, outcome⟩ := emission_outcome accepted ["armed", "arm", "arm"]
  obtain ⟨emission, emitted⟩ := succeeds.2 (by decide)
  obtain ⟨entries, names, -, -, -, starts, -, placeholders, calls, -⟩ := outcome emission emitted
  have length := congrArg List.length names
  rw [List.length_map] at length
  refine ⟨_, emission, accepted, emitted, starts.trans (by decide), placeholders.trans (by decide),
    ?_⟩
  rw [calls, List.length_map, length]
  decide

end TrieDispatch
