import TrieDispatch.Code.Listing
import TrieDispatch.Proofs.Code.Roundtrip

/-! # Listings cover the code -/

namespace TrieDispatch.Routine

/-- The lines that follow one another from an offset up to the end of the code. -/
inductive Listed (routine : Routine) : (offset : Nat) → List ListingLine → Prop
  | ended : Listed routine routine.code.size []
  | line {offset : Nat} {rest : List ListingLine} (inside : offset < routine.code.size)
      (further : Listed routine (routine.lineAt offset).nextOffset rest) :
      Listed routine offset (routine.lineAt offset :: rest)

variable {routine : Routine} {offset : Nat} {lines : List ListingLine} {line : ListingLine}

theorem offset_lineAt (routine : Routine) (offset : Nat) :
    (routine.lineAt offset).offset = offset := by
  cases found : routine.code.decodeAt? offset <;> simp [lineAt, found]

theorem nextOffset_of_decodeAt? {decoded : Decoded}
    (found : routine.code.decodeAt? offset = some decoded) :
    (routine.lineAt offset).nextOffset = decoded.nextOffset := by
  simp [lineAt, found]

/-- No line reaches past the end, not even where an immediate has been cut off. -/
theorem nextOffset_lineAt_le (inside : offset < routine.code.size) :
    (routine.lineAt offset).nextOffset ≤ routine.code.size := by
  cases found : routine.code.decodeAt? offset with
  | none =>
    simp only [lineAt, found]
    exact inside
  | some decoded =>
    rw [nextOffset_of_decodeAt? found]
    exact ByteCode.nextOffset_le_of_decodeAt? found

private theorem foldl_row (head : String) (lines : List ListingLine) :
    lines.foldl (fun text line => text ++ line.row) head =
      head ++ String.join (lines.map ListingLine.row) := by
  induction lines generalizing head with
  | nil => simp
  | cons line lines ih =>
    rw [List.foldl_cons, ih, List.map_cons, String.join_cons, String.append_assoc]

theorem listing_eq (routine : Routine) :
    routine.listing =
      routine.listingHead ++ String.join (routine.lines.toList.map ListingLine.row) := by
  rw [listing, ← Array.foldl_toList, foldl_row]

theorem exists_listed (bounded : offset ≤ routine.code.size) (earlier : Array ListingLine) :
    ∃ lines, routine.Listed offset lines ∧
      routine.linesFrom offset earlier = earlier ++ lines := by
  fun_induction linesFrom routine offset earlier with
  | case1 offset earlier inside line ih =>
    obtain ⟨rest, further, same⟩ := ih (nextOffset_lineAt_le inside)
    exact ⟨line :: rest, .line inside further, by simp [same]⟩
  | case2 offset earlier outside =>
    obtain rfl := Nat.le_antisymm bounded (Nat.le_of_not_lt outside)
    exact ⟨[], .ended, by simp⟩

theorem listed_lines (routine : Routine) : routine.Listed 0 routine.lines.toList := by
  obtain ⟨lines, listed, same⟩ := routine.exists_listed (Nat.zero_le _) #[]
  rw [Routine.lines, same]
  simpa using listed

namespace Listed

theorem map_offset (listed : routine.Listed offset lines) :
    lines.map ListingLine.offset ++ [routine.code.size] =
      offset :: lines.map ListingLine.nextOffset := by
  induction listed with
  | ended => rfl
  | line inside further ih => simp [offset_lineAt, ih]

theorem length_le (listed : routine.Listed offset lines) :
    offset + lines.length ≤ routine.code.size := by
  induction listed with
  | ended => simp
  | @line offset rest inside further ih =>
    have longer := routine.lt_nextOffset_lineAt offset
    rw [List.length_cons]
    omega

theorem le_offset (listed : routine.Listed offset lines) (member : line ∈ lines) :
    offset ≤ line.offset := by
  induction listed with
  | ended => simp at member
  | @line offset rest inside further ih =>
    have longer := routine.lt_nextOffset_lineAt offset
    cases member with
    | head => simp [offset_lineAt]
    | tail _ member => exact Nat.le_trans (Nat.le_of_lt longer) (ih member)

theorem eq_lineAt (listed : routine.Listed offset lines) (member : line ∈ lines) :
    line = routine.lineAt line.offset ∧ line.offset < routine.code.size := by
  induction listed with
  | ended => simp at member
  | line inside further ih =>
    cases member with
    | head => simpa [offset_lineAt] using inside
    | tail _ member => exact ih member

theorem countP_eq_one (listed : routine.Listed offset lines) {byte : Nat} (reached : offset ≤ byte)
    (inside : byte < routine.code.size) :
    lines.countP (fun line => line.offset ≤ byte && byte < line.nextOffset) = 1 := by
  induction listed with
  | ended => exact absurd inside (Nat.not_lt.2 reached)
  | @line offset rest _ further ih =>
    rw [List.countP_cons, offset_lineAt]
    by_cases here : byte < (routine.lineAt offset).nextOffset
    · have later : rest.countP (fun line => line.offset ≤ byte && byte < line.nextOffset) = 0 := by
        rw [List.countP_eq_zero]
        intro line member
        have after := further.le_offset member
        simp only [Bool.and_eq_true, decide_eq_true_eq, not_and]
        omega
      simp [later, reached, here]
    · simp [here, ih (Nat.le_of_not_lt here)]

/-- The decoder goes on as long as the lines decode. -/
theorem exists_walk (listed : routine.Listed offset lines) :
    ∃ found, routine.code.Walk offset found ∧
      found.map some =
        (lines.map fun line => routine.code.decodeAt? line.offset).takeWhile Option.isSome ∧
      (offset + (found.map Decoded.size).sum = routine.code.size →
        lines.map ListingLine.offset = found.map Decoded.offset) := by
  induction listed with
  | ended =>
    exact ⟨[], .ended (ByteCode.decodeAt?_of_size_le (Nat.le_refl _)), rfl, fun _ => rfl⟩
  | @line offset rest inside further ih =>
    cases decodes : routine.code.decodeAt? offset with
    | none =>
      refine ⟨[], .ended decodes, by simp [offset_lineAt, decodes], fun full => ?_⟩
      exact absurd full (Nat.ne_of_lt inside)
    | some decoded =>
      obtain ⟨found, walk, prefixed, full⟩ := ih
      have next := nextOffset_of_decodeAt? decodes
      have start := ByteCode.offset_of_decodeAt? decodes
      refine ⟨decoded :: found, .step decodes (next ▸ walk), ?_, fun total => ?_⟩
      · simp [offset_lineAt, decodes, prefixed]
      · rw [List.map_cons, List.sum_cons] at total
        rw [List.map_cons, List.map_cons, offset_lineAt, start, full]
        rw [next, Decoded.nextOffset]
        omega

end Listed

theorem map_offset_lines {program : Program} {encoding : Encoding} (reads : encoding.Reads program)
    (same : routine.code = encoding.code) :
    routine.lines.map ListingLine.offset = encoding.offsets := by
  obtain ⟨found, walk, -, full⟩ := routine.listed_lines.exists_walk
  have decoded : encoding.code.decode = found.toArray := same ▸ ByteCode.decode_of_walk walk
  have total := reads.sizes
  rw [decoded, ← same] at total
  have starts := full (by rw [Nat.zero_add, total])
  apply Array.toList_inj.1
  rw [← reads.starts, decoded, Array.toList_map, Array.toList_map, starts]

/-- A listing is its head and then one row for each line. The lines lie end to end from the first
byte to the last, and decoding gives their instructions up to the first line that does not decode.
In the code of a program each instruction has its line, where its bytes start. -/
theorem lines_split_code (routine : Routine) :
    routine.listing = routine.listingHead ++
      String.join (routine.lines.toList.map fun line =>
        hexOffset line.offset ++ " " ++ line.text ++ "\n") ∧
    routine.lines.toList.map ListingLine.offset ++ [routine.code.size] =
      0 :: routine.lines.toList.map ListingLine.nextOffset ∧
    routine.lines.size ≤ routine.code.size ∧
    (∀ byte < routine.code.size,
      routine.lines.toList.countP (fun line => line.offset ≤ byte && byte < line.nextOffset) = 1) ∧
    (∀ line ∈ routine.lines.toList, line = routine.lineAt line.offset ∧
      line.offset < line.nextOffset ∧ line.nextOffset ≤ routine.code.size) ∧
    routine.code.decode.toList.map some =
      (routine.lines.toList.map fun line => routine.code.decodeAt? line.offset).takeWhile
        Option.isSome ∧
    ∀ (program : Program) (maxPasses : Nat) (encoding : Encoding),
      program.encode maxPasses = .ok encoding → routine.code = encoding.code →
        routine.lines.size = program.size ∧
        routine.lines.map ListingLine.offset = encoding.offsets := by
  have listed := routine.listed_lines
  obtain ⟨found, walk, prefixed, full⟩ := listed.exists_walk
  have decoded := ByteCode.decode_of_walk walk
  refine ⟨routine.listing_eq, listed.map_offset, by simpa using listed.length_le,
    fun byte inside => listed.countP_eq_one (Nat.zero_le byte) inside, ?_, by simpa [decoded], ?_⟩
  · intro line member
    obtain ⟨same, inside⟩ := listed.eq_lineAt member
    have longer := routine.lt_nextOffset_lineAt line.offset
    have within := nextOffset_lineAt_le inside
    rw [← same] at longer within
    exact ⟨same, longer, within⟩
  · intro program maxPasses encoding encoded same
    have reads := Program.reads_of_encode encoded
    have starts := map_offset_lines reads same
    have count := congrArg Array.size starts
    rw [Array.size_map, ← reads.starts, Array.size_map, reads.size] at count
    exact ⟨count, starts⟩

end TrieDispatch.Routine
