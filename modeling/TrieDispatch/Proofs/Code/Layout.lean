import Mathlib.Algebra.GroupWithZero.Nat
import Mathlib.Data.List.Induction
import TrieDispatch.Proofs.Code.Immediates

/-! # Layouts -/

namespace TrieDispatch.Program

def offsetAt (forms : Array Opcode) (position : Nat) : Nat :=
  ((forms.toList.take position).map Opcode.size).sum

theorem size_pos (opcode : Opcode) : 0 < opcode.size := by
  rw [Opcode.size]
  omega

theorem offsetAt_succ {forms : Array Opcode} {position : Nat} {opcode : Opcode}
    (h : forms[position]? = some opcode) :
    offsetAt forms (position + 1) = offsetAt forms position + opcode.size := by
  rw [← Array.getElem?_toList] at h
  rw [offsetAt, List.take_add_one, h]
  simp [offsetAt]

private theorem offsetAt_append_left {forms : List Opcode} (more : List Opcode) {position : Nat}
    (h : position ≤ forms.length) :
    offsetAt (forms ++ more).toArray position = offsetAt forms.toArray position := by
  simp only [offsetAt, List.take_append_of_le_length h]

theorem layout_eq (forms : Array Opcode) :
    layout forms = ((List.range (forms.size + 1)).map (offsetAt forms)).toArray := by
  obtain ⟨forms⟩ := forms
  induction forms using List.reverseRecOn with
  | nil => rfl
  | append_singleton forms opcode ih =>
    have step : layout (forms ++ [opcode]).toArray =
        (layout forms.toArray).push ((layout forms.toArray).back?.getD 0 + opcode.size) := by
      simp only [layout, List.foldl_toArray, List.foldl_append, List.foldl_cons, List.foldl_nil]
    have earlier : (List.range (forms.length + 1)).map (offsetAt (forms ++ [opcode]).toArray) =
        (List.range (forms.length + 1)).map (offsetAt forms.toArray) := by
      apply List.map_congr_left
      intro position inside
      exact offsetAt_append_left _ (Nat.le_of_lt_succ (List.mem_range.1 inside))
    have last : offsetAt (forms ++ [opcode]).toArray (forms.length + 1) =
        offsetAt forms.toArray forms.length + opcode.size := by
      have present : (forms ++ [opcode]).toArray[forms.length]? = some opcode := by simp
      rw [offsetAt_succ present, offsetAt_append_left _ (Nat.le_refl _)]
    have back : ((List.range (forms.length + 1)).map (offsetAt forms.toArray)).toArray.back? =
        some (offsetAt forms.toArray forms.length) := by
      simp [List.range_succ]
    have size : List.range ((forms ++ [opcode]).toArray.size + 1) =
        List.range (forms.length + 1) ++ [forms.length + 1] := by
      rw [List.size_toArray, List.length_append, List.length_singleton, List.range_succ]
    rw [step, ih, List.size_toArray, size, List.map_append, earlier, List.map_singleton, last, back,
      Option.getD_some, List.push_toArray]

theorem size_layout (forms : Array Opcode) : (layout forms).size = forms.size + 1 := by
  simp [layout_eq]

theorem layout_getElem? {forms : Array Opcode} {position : Nat} (h : position ≤ forms.size) :
    (layout forms)[position]? = some (offsetAt forms position) := by
  simp [layout_eq, Nat.lt_succ_of_le h]

theorem pop_layout_getElem? (forms : Array Opcode) (position : Nat) :
    (layout forms).pop[position]? =
      if position < forms.size then some (offsetAt forms position) else none := by
  rw [Array.getElem?_pop, size_layout, Nat.add_sub_cancel]
  split
  next inside => exact layout_getElem? (Nat.le_of_lt inside)
  next => rfl

theorem offsetAt_add_le {forms : Array Opcode} {position : Nat} (count : Nat)
    (inside : position + count ≤ forms.size) :
    offsetAt forms position + count ≤ offsetAt forms (position + count) := by
  induction count with
  | zero => exact Nat.le_refl _
  | succ count ih =>
    have present : position + count < forms.size := inside
    have step := offsetAt_succ (Array.getElem?_eq_getElem present)
    have := size_pos forms[position + count]
    have := ih (Nat.le_of_lt present)
    rw [← Nat.add_assoc, ← Nat.add_assoc, step]
    omega

theorem offsetAt_mono {forms : Array Opcode} {position later : Nat} (h : position ≤ later)
    (inside : later ≤ forms.size) : offsetAt forms position ≤ offsetAt forms later := by
  obtain ⟨count, rfl⟩ := Nat.exists_eq_add_of_le h
  have := offsetAt_add_le count inside
  omega

theorem offsetAt_lt {forms : Array Opcode} {position later : Nat} (h : position < later)
    (inside : later ≤ forms.size) : offsetAt forms position < offsetAt forms later := by
  obtain ⟨count, rfl⟩ := Nat.exists_eq_add_of_le (Nat.le_of_lt h)
  have := offsetAt_add_le count inside
  omega

def pieceAt (program : Program) (offsets : Array Nat) (piece : Opcode × Nat) : List UInt8 :=
  piece.1.toByte :: piece.1.immediate.write (program.immediate offsets piece.2)

theorem length_pieceAt (program : Program) (offsets : Array Nat) (piece : Opcode × Nat) :
    (program.pieceAt offsets piece).length = piece.1.size := by
  rw [pieceAt, List.length_cons, Immediate.length_write, Opcode.size, Nat.add_comm]

theorem toList_bytes (program : Program) (forms : Array Opcode) (offsets : Array Nat) :
    (program.bytes forms offsets).toList =
      forms.toList.zipIdx.flatMap (program.pieceAt offsets) := by
  have collect (pieces : List (Opcode × Nat)) (code : ByteCode) :
      (pieces.foldl (fun code piece => (code.push piece.1.toByte).appendList
        (piece.1.immediate.write (program.immediate offsets piece.2))) code).toList =
        code.toList ++ pieces.flatMap (program.pieceAt offsets) := by
    induction pieces generalizing code with
    | nil => simp
    | cons piece pieces ih =>
      rw [List.foldl_cons, ih]
      simp [pieceAt]
  rw [bytes, ← Array.foldl_toList, Array.toList_zipIdx]
  exact collect _ #[]

private theorem length_pieces (program : Program) (offsets : Array Nat)
    (pieces : List (Opcode × Nat)) :
    (pieces.flatMap (program.pieceAt offsets)).length =
      ((pieces.map Prod.fst).map Opcode.size).sum := by
  induction pieces with
  | nil => rfl
  | cons piece pieces ih =>
    rw [List.flatMap_cons, List.length_append, length_pieceAt, ih, List.map_cons, List.map_cons,
      List.sum_cons]

theorem size_bytes (program : Program) (forms : Array Opcode) (offsets : Array Nat) :
    (program.bytes forms offsets).size = offsetAt forms forms.size := by
  rw [← Array.length_toList, toList_bytes, length_pieces, List.zipIdx_map_fst, offsetAt,
    ← Array.length_toList, List.take_length]

/-- The bytes of an instruction stand at its offset. -/
theorem bytes_split {forms : Array Opcode} {position : Nat} {opcode : Opcode}
    (program : Program) (offsets : Array Nat) (h : forms[position]? = some opcode) :
    ∃ before after, before.length = offsetAt forms position ∧
      (program.bytes forms offsets).toList =
        before ++ program.pieceAt offsets (opcode, position) ++ after := by
  have present : forms.toList.zipIdx[position]? = some (opcode, position) := by
    rw [List.getElem?_zipIdx, Array.getElem?_toList, h, Option.map_some, Nat.zero_add]
  obtain ⟨inside, value⟩ := List.getElem?_eq_some_iff.1 present
  refine ⟨(forms.toList.zipIdx.take position).flatMap (program.pieceAt offsets),
    (forms.toList.zipIdx.drop (position + 1)).flatMap (program.pieceAt offsets), ?_, ?_⟩
  · rw [length_pieces, List.map_take, List.zipIdx_map_fst, offsetAt]
  · rw [toList_bytes, ← List.flatMap_singleton (program.pieceAt offsets) (opcode, position),
      ← List.flatMap_append, ← List.flatMap_append]
    congr 1
    rw [List.append_assoc, List.singleton_append, ← value, ← List.drop_eq_getElem_cons,
      List.take_append_drop]

theorem decodeAt?_bytes {program : Program} {forms : Array Opcode} {offsets : Array Nat}
    {position : Nat} {opcode : Opcode} (h : forms[position]? = some opcode)
    (holds : opcode.immediate.Holds (program.immediate offsets position)) :
    (program.bytes forms offsets).decodeAt? (offsetAt forms position) =
      some ⟨offsetAt forms position, opcode,
        opcode.immediate.read (program.immediate offsets position)⟩ := by
  obtain ⟨before, after, length, split⟩ := bytes_split program offsets h
  rw [← length]
  exact ByteCode.decodeAt?_of_append holds split

end TrieDispatch.Program
