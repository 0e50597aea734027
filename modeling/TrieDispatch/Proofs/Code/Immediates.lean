import Mathlib.Algebra.Order.Group.Int
import Mathlib.Algebra.Order.Group.Nat
import TrieDispatch.Code.Routine

/-! # Immediates read back -/

namespace TrieDispatch

theorem bigEndian_append (bytes : List UInt8) (byte : UInt8) :
    bigEndian (bytes ++ [byte]) = bigEndian bytes * 256 + byte.toNat := by
  simp only [bigEndian, List.foldl_append, List.foldl_cons, List.foldl_nil]

theorem length_toBigEndian (width number : Nat) : (toBigEndian width number).length = width := by
  induction width generalizing number with
  | zero => rfl
  | succ width ih => rw [toBigEndian, List.length_append, ih, List.length_singleton]

theorem bigEndian_toBigEndian (width number : Nat) :
    bigEndian (toBigEndian width number) = number % 256 ^ width := by
  induction width generalizing number with
  | zero => simp [toBigEndian, bigEndian, Nat.mod_one]
  | succ width ih =>
    rw [toBigEndian, bigEndian_append, ih, Nat.pow_succ, Nat.mul_comm (256 ^ width), Nat.mod_mul]
    simp only [Nat.toUInt8, UInt8.toNat_ofNat']
    omega

theorem fitsSigned_iff (bits : Nat) (n : Int) :
    fitsSigned bits n = true ↔ -2 ^ (bits - 1) ≤ n ∧ n < 2 ^ (bits - 1) := by
  simp only [fitsSigned, Bool.and_eq_true, decide_eq_true_eq]
  exact Iff.rfl

namespace Immediate

def Holds : Immediate → Int → Prop
  | none, _ => True
  | byte, n => 0 ≤ n ∧ n < 256
  | signedByte, n => fitsSigned 8 n
  | half, n => 0 ≤ n ∧ n < 65536
  | signedWord, n => fitsSigned 32 n

def read : Immediate → Int → Option Int
  | none, _ => .none
  | _, n => some n

theorem length_write (immediate : Immediate) (n : Int) :
    (immediate.write n).length = immediate.width :=
  length_toBigEndian _ _

theorem bigEndian_write (immediate : Immediate) (n : Int) :
    (bigEndian (immediate.write n) : Int) = n % 256 ^ immediate.width := by
  have positive : (0 : Int) < 256 ^ immediate.width := Int.pow_pos (by decide)
  have nonneg := Int.emod_nonneg n (Int.ne_of_gt positive)
  have less := Int.emod_lt_of_pos n positive
  have cast : ((256 ^ immediate.width : Nat) : Int) = 256 ^ immediate.width := by simp
  show ((bigEndian (toBigEndian immediate.width (n % 256 ^ immediate.width).toNat) : Nat) : Int) = _
  rw [bigEndian_toBigEndian, Nat.mod_eq_of_lt, Int.toNat_of_nonneg nonneg]
  omega

end Immediate

/-- The signed number is found again from its low bytes. -/
theorem signExtend_emod (width : Nat) {n : Int} (positive : 0 < width)
    (fits : fitsSigned (8 * width) n = true) {number : Nat}
    (h : (number : Int) = n % 256 ^ width) : signExtend width number = n := by
  obtain ⟨low, high⟩ := (fitsSigned_iff _ _).1 fits
  have power : ((256 ^ width : Nat) : Int) = 2 * 2 ^ (8 * width - 1) := by
    have : 256 ^ width = 2 ^ (8 * width) := by rw [Nat.pow_mul]
    rw [this, show 8 * width = (8 * width - 1) + 1 by omega, Nat.pow_succ, Nat.add_sub_cancel]
    push_cast
    omega
  have cast : ((256 ^ width : Nat) : Int) = 256 ^ width := by simp
  show Int.bmod number (256 ^ width) = n
  rw [h, ← cast, Int.emod_bmod, Int.bmod_eq_of_le]
  · omega
  · omega

namespace ByteCode

variable {code : ByteCode} {before after : List UInt8}

theorem size_of_toList {bytes : List UInt8} (h : code.toList = bytes) :
    code.size = bytes.length := by
  rw [← h, Array.length_toList]

theorem byte?_of_append {byte : UInt8} (h : code.toList = before ++ byte :: after) :
    code.byte? before.length = some byte := by
  rw [byte?, ← Array.getElem?_toList, h, List.getElem?_append_right (Nat.le_refl _), Nat.sub_self,
    List.getElem?_cons_zero]

theorem slice?_of_append {bytes : List UInt8} (h : code.toList = before ++ bytes ++ after) :
    code.slice? before.length bytes.length = some bytes := by
  have size := size_of_toList h
  simp only [List.length_append] at size
  rw [slice?, if_pos (by omega), Array.toList_extract, h, List.extract_eq_take_drop,
    List.append_assoc, List.drop_left, Nat.add_sub_cancel_left, List.take_left]

theorem byte?_of_slice? {offset : Nat} {bytes : List UInt8}
    (h : code.slice? offset 1 = some bytes) :
    ∃ byte, code.byte? offset = some byte ∧ byte.toNat = bigEndian bytes := by
  unfold slice? at h
  split at h
  next inside =>
    have present : offset < code.size := by omega
    refine ⟨code[offset], Array.getElem?_eq_getElem present, ?_⟩
    rw [Array.toList_extract, List.extract_eq_take_drop, Nat.add_sub_cancel_left,
      List.drop_eq_getElem_cons (by rwa [Array.length_toList]), List.take_succ_cons, List.take_zero,
      Array.getElem_toList] at h
    obtain rfl := Option.some.inj h
    simp [bigEndian]
  next => cases h

/-- An instruction written into the code is decoded where it stands. -/
theorem decodeAt?_of_append {opcode : Opcode} {n : Int} (holds : opcode.immediate.Holds n)
    (h : code.toList = before ++ (opcode.toByte :: opcode.immediate.write n) ++ after) :
    code.decodeAt? before.length =
      some ⟨before.length, opcode, opcode.immediate.read n⟩ := by
  have first : code.byte? before.length = some opcode.toByte := by
    refine byte?_of_append (?_ : _ = _ ++ _ :: (opcode.immediate.write n ++ after))
    rw [h, List.append_assoc, List.cons_append]
  have split : code.toList = (before ++ [opcode.toByte]) ++ opcode.immediate.write n ++ after := by
    rw [h]
    simp only [List.append_assoc, List.cons_append, List.nil_append]
  have rest := slice?_of_append split
  rw [Immediate.length_write, List.length_append, List.length_singleton] at rest
  have value := Immediate.bigEndian_write opcode.immediate n
  rw [decodeAt?, opcode?, first, Option.bind_some, Opcode.ofByte?_toByte, Option.bind_some]
  generalize opcode.immediate = immediate at *
  cases immediate with
  | none => rfl
  | byte =>
    obtain ⟨low, high⟩ := holds
    obtain ⟨byte, present, number⟩ := byte?_of_slice? rest
    rw [← number, show (256 : Int) ^ Immediate.byte.width = 256 from rfl,
      Int.emod_eq_of_lt low high] at value
    simp only [present, Option.map_some, Immediate.read, value]
  | signedByte =>
    obtain ⟨byte, present, number⟩ := byte?_of_slice? rest
    rw [← number] at value
    simp only [signedByte?, present, Option.map_some, Immediate.read,
      signExtend_emod 1 (by decide) holds value]
  | half =>
    obtain ⟨low, high⟩ := holds
    rw [show (256 : Int) ^ Immediate.half.width = 65536 from rfl,
      Int.emod_eq_of_lt low high] at value
    simp only [Immediate.width] at rest
    simp only [half?, rest, Option.map_some, Immediate.read, Option.bind_eq_bind, Option.bind_some,
      Option.pure_def, value]
  | signedWord =>
    simp only [Immediate.width] at rest
    simp only [signedWord?, rest, Option.map_some, Immediate.read,
      signExtend_emod 4 (by decide) holds value]

end ByteCode

end TrieDispatch
